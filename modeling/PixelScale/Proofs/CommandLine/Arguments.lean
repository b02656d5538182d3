import PixelScale.CommandLine.Arguments

/-!
# One more switch

The switches `--check` and `--in-place` say what becomes of converted files. Either can be put in
front of all other arguments. Reading goes on as it does without it, and gives the same with the
switch on, until the switch is met again: there reading ends, while without the switch in front it
goes on with the switch on. So arguments that make no sense make none with the switch in front, and
arguments that do not give the switch mean the same with it on.

* `Command.Carries`, `Command.carries_read`: reading with a switch in front.
* `Command.ofArguments_usage`, `Command.ofArguments_ok`: what arguments with a switch in front mean.
-/

namespace PixelScale

namespace Command

/-- The switches that say what becomes of converted files. -/
def Flag.IsMode (f : Flag) : Prop := f = .check ∨ f = .inPlace

/-- A command with a switch on. -/
def turnOn (f : Flag) (c : ConvertArguments) : ConvertArguments :=
  match f with
  | .check => { c with check := true }
  | .inPlace => { c with inPlace := true }
  | _ => c

namespace Given

/-- What was given, with a switch on that is not used up. -/
def turned (g : Given) (f : Flag) : Given := { g with convert := turnOn f g.convert }

/-- What was given, with a switch in front. -/
def on (g : Given) (f : Flag) : Given := { g.turned f with used := g.used ++ [f] }

/-- The switch was given. -/
def IsOn (g : Given) (f : Flag) : Prop := g.turned f = g

variable {f f' : Flag} {g g' : Given} {v t : Text} {w : Word}

theorem give?_mode (hf : f.IsMode) (g : Given) (v : Text) : g.give? f v = some (g.turned f) := by
  rcases hf with rfl | rfl <;> rfl

theorem isOn_turned (hf : f.IsMode) (g : Given) : (g.turned f).IsOn f := by
  rcases hf with rfl | rfl <;> rfl

/-- The effect of a flag does not depend on whether the switch is on or used up. -/
theorem give?_turned_on (hf : f.IsMode) (g : Given) (f' : Flag) (v : Text) :
    (g.turned f).give? f' v = (g.give? f' v).map (·.turned f) ∧
      (g.on f).give? f' v = (g.give? f' v).map (·.on f) := by
  rcases hf with rfl | rfl <;>
    cases f' with
    | output | report | config =>
      unfold give?
      cases path? v <;> exact ⟨rfl, rfl⟩
    | rootValue | minPixelValue =>
      unfold give?
      cases Numeral.toFloat? v <;> exact ⟨rfl, rfl⟩
    | jobs =>
      unfold give?
      cases (whole? v).filter (· < Nat.pow 2 64) <;> exact ⟨rfl, rfl⟩
    | unitPrecision =>
      unfold give?
      cases precision? v <;> exact ⟨rfl, rfl⟩
    | replace =>
      unfold give?
      cases bool? v <;> exact ⟨rfl, rfl⟩
    | _ => exact ⟨rfl, rfl⟩

/-- A flag that is used has its effect. -/
theorem exists_give?_of_use (h : g.use f' v = .ok g') :
    ∃ g₁, g.give? f' v = some g₁ ∧ g' = { g₁ with used := f' :: g₁.used } := by
  unfold use at h
  split at h
  · cases h
  · split at h
    next g₁ hg₁ =>
      cases h
      exact ⟨g₁, hg₁, rfl⟩
    next => cases h

/-- The switch is used up by the one in front. -/
theorem use_on_self (hf : f.IsMode) (g : Given) (v : Text) : (g.on f).use f v = .error .usage := by
  have hused : ((g.on f).used.contains f && !f.isList) = true := by
    rw [show (g.on f).used = g.used ++ [f] from rfl]
    rcases hf with rfl | rfl <;> simp [Flag.isList]
  rw [use, if_pos hused]

/-- Every other flag does what it does without the one in front. -/
theorem use_on (hf : f.IsMode) (hne : f' ≠ f) (g : Given) (v : Text) :
    (g.on f).use f' v = (g.use f' v).map (·.on f) := by
  have hused : (g.on f).used.contains f' = g.used.contains f' := by
    rw [show (g.on f).used = g.used ++ [f] from rfl]
    simp [hne]
  unfold use
  rw [hused, (give?_turned_on hf g f' v).2]
  split
  · rfl
  · cases g.give? f' v <;> rfl

theorem add_on (g : Given) (f : Flag) (w : Word) (t : Text) :
    (g.on f).add w t = (g.add w t).map (·.on f) := by
  unfold add
  rw [show (g.on f).inputs = g.inputs from rfl]
  split <;> rfl

/-- No flag turns the switch off. -/
theorem isOn_use (hf : f.IsMode) (h : g.use f' v = .ok g') (hg : g.IsOn f ∨ f' = f) :
    g'.IsOn f := by
  obtain ⟨g₁, hgive, rfl⟩ := exists_give?_of_use h
  suffices hon : g₁.turned f = g₁ from
    congrArg (fun g : Given => ({ g with used := f' :: g₁.used } : Given)) hon
  rcases hg with hg | rfl
  · have hturned := (give?_turned_on hf g f' v).1
    rw [hg, hgive] at hturned
    exact (Option.some.inj hturned).symm
  · rw [give?_mode hf] at hgive
    cases hgive
    exact isOn_turned hf g

theorem isOn_add (h : g.add w t = .ok g') (hg : g.IsOn f) : g'.IsOn f := by
  unfold add at h
  split at h
  · cases h
  · cases h
    exact congrArg (fun g₁ : Given => ({ g₁ with inputs := g.inputs ++ [t] } : Given)) hg

end Given

/-! ## Reading -/

/-- A step of reading that does not turn a switch off. With the switch in front, it gives the same
with the switch on, or it ends where it would go on to turn the switch on. -/
structure Carries (f : Flag) (k : Given → Except Refusal Given) : Prop where
  keeps : ∀ g g', k g = .ok g' → g.IsOn f → g'.IsOn f
  follows : ∀ g, k (g.on f) = (k g).map (·.on f) ∨
    (k (g.on f) = .error .usage ∧ ∀ g', k g = .ok g' → g'.IsOn f)

section

variable {f : Flag} {k : Given → Except Refusal Given}

theorem carries_error (x : Refusal) : Carries f fun _ => .error x where
  keeps g g' h := by cases h
  follows _ := .inl rfl

theorem carries_ok : Carries f .ok where
  keeps g g' h hg := by
    cases h
    exact hg
  follows _ := .inl rfl

theorem carries_add (hk : Carries f k) (w : Word) (t : Text) :
    Carries f fun g => g.add w t >>= k where
  keeps g g' h hg := by
    cases hadd : g.add w t with
    | error x =>
      simp only [hadd] at h
      cases h
    | ok g₁ =>
      simp only [hadd] at h
      exact hk.keeps g₁ g' h (Given.isOn_add hadd hg)
  follows g := by
    rw [Given.add_on]
    cases g.add w t with
    | error x => exact .inl rfl
    | ok g₁ => exact hk.follows g₁

theorem carries_addAll (w : Word) (ts : List Text) :
    Carries f fun g => ts.foldlM (fun g t => g.add w t) g := by
  induction ts with
  | nil => exact carries_ok
  | cons t ts ih =>
    simp only [List.foldlM_cons]
    exact carries_add ih w t

theorem carries_use (hf : f.IsMode) (hk : Carries f k) (f' : Flag) (v : Text) :
    Carries f fun g => g.use f' v >>= k where
  keeps g g' h hg := by
    cases huse : g.use f' v with
    | error x =>
      simp only [huse] at h
      cases h
    | ok g₁ =>
      simp only [huse] at h
      exact hk.keeps g₁ g' h (Given.isOn_use hf huse (.inl hg))
  follows g := by
    by_cases hself : f' = f
    · subst hself
      refine .inr ⟨by rw [Given.use_on_self hf]; rfl, fun g' h => ?_⟩
      cases huse : g.use f' v with
      | error x =>
        rw [huse] at h
        cases h
      | ok g₁ =>
        rw [huse] at h
        exact hk.keeps g₁ g' h (Given.isOn_use hf huse (.inr rfl))
    · rw [Given.use_on hf hself]
      cases g.use f' v with
      | error x => exact .inl rfl
      | ok g₁ => exact hk.follows g₁

theorem carries_flag (hf : f.IsMode) {k : Option Flag → Given → Except Refusal Given}
    (hk : ∀ waiting, Carries f (k waiting)) (f' : Flag) (attached : Option Text) :
    Carries f fun g => (do
      let (waiting, g) ← flag g f' attached
      k waiting g) := by
  have hused (v : Text) : Carries f fun g => (do
      let (waiting, g) ← (do return (none, ← g.use f' v) : Except Refusal (Option Flag × Given))
      k waiting g) := by
    simp only [bind_assoc, pure_bind]
    exact carries_use hf (hk none) f' v
  unfold flag
  cases f'.isSwitch with
  | true =>
    cases attached with
    | none => exact hused []
    | some v => exact carries_error _
  | false =>
    cases attached with
    | none => exact hk (some f')
    | some v => exact hused v

/-- Reading to the end. The induction follows the arguments, where a flag may wait for a value. -/
theorem carries_read (hf : f.IsMode) (w : Word) (waiting : Option Flag) (rest : List Text) :
    Carries f fun g => read w waiting g rest := by
  induction rest generalizing waiting with
  | nil =>
    cases waiting with
    | none => exact carries_ok
    | some f' => exact carries_error _
  | cons t rest ih =>
    cases waiting with
    | some f' =>
      simp only [read]
      split
      · exact carries_use hf (ih none) f' _
      · exact carries_error _
    | none =>
      simp only [read]
      split
      · exact carries_add (ih none) w _
      · exact carries_addAll w rest
      · split
        · exact carries_error _
        · split
          · exact carries_flag hf ih _ _
          · exact carries_error _

end

/-! ## Arguments -/

/-- The arguments of a `convert` command. -/
def converting (rest : List Text) : List Text := "convert".toList :: rest

/-- The argument that is a switch. -/
def Flag.argument (f : Flag) : Text := "--".toList ++ f.long

section

variable {f : Flag} {rest : List Text}

theorem ofArguments_converting (rest : List Text) : ofArguments (converting rest) =
    (do ofGiven .convert (← read .convert none {} rest)) := rfl

theorem ofArguments_mode (hf : f.IsMode) (rest : List Text) :
    ofArguments (converting (f.argument :: rest)) =
      (do ofGiven .convert (← read .convert none (({} : Given).on f) rest)) := by
  rcases hf with rfl | rfl <;> rfl

/-- Arguments that make no sense make none with the switch in front. -/
theorem ofArguments_usage (hf : f.IsMode) (h : ofArguments (converting rest) = .error .usage) :
    ofArguments (converting (f.argument :: rest)) = .error .usage := by
  rw [ofArguments_converting] at h
  rw [ofArguments_mode hf]
  rcases (carries_read hf .convert none rest).follows {} with hon | ⟨hon, -⟩
  · rw [hon]
    cases hread : read .convert none {} rest with
    | error x =>
      rw [hread] at h
      exact h
    | ok g =>
      rw [hread] at h
      change ofGiven .convert (g.on f) = _
      change ofGiven .convert g = _ at h
      unfold ofGiven at h ⊢
      split at h
      next hboth => exact if_pos hboth
      next => cases h
  · rw [hon]
    rfl

/-- Arguments that do not give the switch mean the same with it on. -/
theorem ofArguments_ok (hf : f.IsMode) {a : ConvertArguments}
    (h : ofArguments (converting rest) = .ok (.convert a)) (hoff : turnOn f a ≠ a) :
    ofArguments (converting (f.argument :: rest)) = .ok (.convert (turnOn f a)) := by
  rw [ofArguments_converting] at h
  rw [ofArguments_mode hf]
  cases hread : read .convert none {} rest with
  | error x =>
    rw [hread] at h
    cases h
  | ok g =>
    rw [hread] at h
    change ofGiven .convert g = _ at h
    unfold ofGiven at h
    split at h
    next => cases h
    next hboth =>
      simp only [Except.ok.injEq, Command.convert.injEq] at h
      subst h
      rcases (carries_read hf .convert none rest).follows {} with hon | ⟨-, hon⟩
      · rw [hon, hread]
        change ofGiven .convert (g.on f) = _
        unfold ofGiven
        refine (if_neg hboth).trans ?_
        rcases hf with rfl | rfl <;> rfl
      · refine absurd ?_ hoff
        have hconvert : turnOn f g.convert = g.convert := congrArg Given.convert (hon g hread)
        have hall := congrArg (fun c : ConvertArguments =>
          ({ c with inputs := g.inputs, options := g.options } : ConvertArguments)) hconvert
        rcases hf with rfl | rfl <;> exact hall

end

end Command

end PixelScale
