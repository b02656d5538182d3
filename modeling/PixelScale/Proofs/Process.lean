import Mathlib.Data.List.Basic
import Mathlib.Logic.Function.Basic
import Mathlib.Tactic.Choose
import PixelScale.Machine

/-!
# Processes that share a state

A process is a program cut into its accesses to a state. An access sees the state and changes it
in one go, and between two accesses of a process others may come. Commands are written over the
operations of a host, so a command is a process whose accesses are these operations; executed
alone, it does to a machine what the command does.

A process keeps a contract if it does what the contract guarantees while everything around it does
what the contract relies on. Where each process guarantees what the others rely on, all of them
keep their contracts, whatever the schedule is.

* `Process`, `Process.execute`: processes, and what one does alone.
* `Process.Interleaved`: a run of several processes, access by access.
* `Process.Interleaved.inOrder`: one after another in some order is such a run.
* `Process.Meets`: keeping a contract; `Process.Meets.bind` and `Process.meets_lift`.
* `Process.Interleaved.meets`: processes that fit together keep their contracts.
-/

namespace PixelScale

/-- A program over a state, cut into accesses. What follows an access depends on the state that the
access found. -/
inductive Process (σ α : Type) where
  | done (a : α)
  | act (effect : σ → σ) (next : σ → Process σ α)

namespace Process

variable {σ α β ι : Type}

def bind : Process σ α → (α → Process σ β) → Process σ β
  | done a, k => k a
  | act effect next, k => act effect fun s => (next s).bind k

instance : Monad (Process σ) where
  pure := done
  bind := Process.bind

/-- A program as one access. -/
def lift (x : StateM σ α) : Process σ α := act (fun s => (x.run s).2) fun s => done (x.run s).1

/-- A process without others. -/
def execute : Process σ α → StateM σ α
  | done a => fun s => (a, s)
  | act effect next => fun s => (next s).execute (effect s)

theorem execute_bind (p : Process σ α) (k : α → Process σ β) :
    execute (p >>= k) = execute p >>= fun a => execute (k a) := by
  induction p with
  | done a => rfl
  | act effect next ih =>
    funext s
    exact congrFun (ih s) (effect s)

/-- The operations on a machine, one access each. -/
instance : Host (Process Machine) where
  workingFolder := lift Host.workingFolder
  variableValue? name := lift (Host.variableValue? name)
  kind? p := lift (Host.kind? p)
  survey g := lift (Host.survey g)
  read p := lift (Host.read p)
  write p t := lift (Host.write p t)
  append p t := lift (Host.append p t)
  makeFolder p := lift (Host.makeFolder p)
  input := lift Host.input
  isInteractive := lift Host.isInteractive
  print t := lift (Host.print t)
  warn t := lift (Host.warn t)
  seconds := lift Host.seconds

/-- As a process, making folders does alone what it does anyway. -/
theorem execute_makeFoldersWithin (fuel : Nat) (p : Path) :
    execute (Host.makeFoldersWithin fuel p) =
      (Host.makeFoldersWithin fuel p : StateM Machine _) := by
  induction fuel generalizing p with
  | zero => rfl
  | succ fuel ih =>
    have check (e : FileError) : execute (do
        return if ← Host.isFolder p then .ok () else .error e) =
        (do return if ← Host.isFolder p then .ok () else .error e :
          StateM Machine (Except FileError Unit)) := rfl
    unfold Host.makeFoldersWithin
    split
    next => rfl
    next =>
      rw [execute_bind]
      refine bind_congr fun r => ?_
      split
      next => rfl
      next =>
        split
        next => rfl
        next q _ =>
          rw [execute_bind, ih]
          refine bind_congr fun r => ?_
          split
          next =>
            rw [execute_bind]
            refine bind_congr fun r => ?_
            split
            next => rfl
            next e => exact check e
          next => rfl
      next e _ => exact check e

/-! ## Runs of several processes -/

/-- A run of processes from one state to another, with their results. Each turn is one access of
one of them. -/
inductive Interleaved [DecidableEq ι] : σ → (ι → Process σ α) → σ → (ι → α) → Prop where
  | finished (s : σ) (results : ι → α) : Interleaved s (fun i => done (results i)) s results
  | turn {s s' : σ} {ps : ι → Process σ α} {results : ι → α} {effect : σ → σ}
      {next : σ → Process σ α} (i : ι) (h : ps i = act effect next)
      (rest : Interleaved (effect s) (Function.update ps i (next s)) s' results) :
      Interleaved s ps s' results

section

variable {s s' : σ} {ps : ι → Process σ α} {results : ι → α}

/-- Processes one after another, in some order. -/
def runInOrder (ps : ι → Process σ α) (is : List ι) (s : σ) : σ :=
  is.foldl (fun s i => ((ps i).execute s).2) s

theorem runInOrder_congr {qs : ι → Process σ α} {is : List ι} (h : ∀ i ∈ is, ps i = qs i) (s : σ) :
    runInOrder ps is s = runInOrder qs is s :=
  List.foldl_ext _ _ s fun s i hi => by rw [h i hi]

variable [DecidableEq ι]

/-- A process may run to its end before the others. -/
theorem Interleaved.afterExecute (i : ι)
    (h : Interleaved ((ps i).execute s).2 (Function.update ps i (done ((ps i).execute s).1)) s'
      results) : Interleaved s ps s' results := by
  generalize hp : ps i = p at h
  induction p generalizing s ps with
  | done a =>
    have hps : Function.update ps i (done a) = ps := by
      rw [← hp]
      exact Function.update_eq_self i ps
    rw [← hps]
    exact h
  | act effect next ih =>
    refine .turn i hp (ih s (Function.update_self i (next s) ps) ?_)
    rwa [Function.update_idem]

/-- Processes that are not done yet, one after another. -/
theorem Interleaved.ofRest {is : List ι} (hnodup : is.Nodup)
    (hall : ∀ i, i ∈ is ∨ ∃ a, ps i = done a) (s : σ) :
    ∃ results, Interleaved s ps (runInOrder ps is s) results := by
  induction is generalizing s ps with
  | nil =>
    have hdone : ∀ i, ∃ a, ps i = done a := fun i => (hall i).resolve_left List.not_mem_nil
    choose results hresults using hdone
    exact ⟨results, (funext hresults : ps = _) ▸ .finished s results⟩
  | cons i is ih =>
    obtain ⟨hi, hnodup⟩ := List.nodup_cons.mp hnodup
    obtain ⟨qs, hqs⟩ : ∃ qs, qs = Function.update ps i (done ((ps i).execute s).1) := ⟨_, rfl⟩
    have hall' : ∀ j, j ∈ is ∨ ∃ a, qs j = done a := by
      intro j
      by_cases hj : j = i
      · subst hj
        exact Or.inr ⟨_, by rw [hqs, Function.update_self]⟩
      · rw [hqs, Function.update_of_ne hj]
        exact (hall j).imp_left fun hmem => (List.mem_cons.mp hmem).resolve_left hj
    have hsame : ∀ j ∈ is, ps j = qs j := by
      intro j hj
      have hne : j ≠ i := by
        rintro rfl
        exact hi hj
      rw [hqs, Function.update_of_ne hne]
    obtain ⟨results, h⟩ := ih hnodup hall' ((ps i).execute s).2
    rw [← runInOrder_congr hsame, hqs] at h
    exact ⟨results, .afterExecute i h⟩

/-- One after another in any order is a run of the processes. -/
theorem Interleaved.inOrder (ps : ι → Process σ α) {is : List ι} (hnodup : is.Nodup)
    (hall : ∀ i, i ∈ is) (s : σ) : ∃ results, Interleaved s ps (runInOrder ps is s) results :=
  ofRest hnodup (fun i => Or.inl (hall i)) s

end

/-! ## Contracts -/

/-- A process keeps to what it guarantees and ends in `post`, while others do what it relies on
before, between and after its accesses. -/
def Meets (rely guarantee : σ → σ → Prop) (post : α → σ → Prop) : Process σ α → σ → Prop
  | done a, s => ∀ s', rely s s' → post a s'
  | act effect next, s =>
    ∀ s', rely s s' → guarantee s' (effect s') ∧
      (next s').Meets rely guarantee post (effect s')

section

variable {rely guarantee : σ → σ → Prop} {post : α → σ → Prop} {s s' : σ}

theorem Meets.stable (htrans : ∀ s₁ s₂ s₃, rely s₁ s₂ → rely s₂ s₃ → rely s₁ s₃)
    {p : Process σ α} (h : p.Meets rely guarantee post s) (hs : rely s s') :
    p.Meets rely guarantee post s' := by
  cases p with
  | done a => exact fun s'' hs' => h s'' (htrans s s' s'' hs hs')
  | act effect next => exact fun s'' hs' => h s'' (htrans s s' s'' hs hs')

theorem Meets.bind {mid : β → σ → Prop} {p : Process σ β} {k : β → Process σ α}
    (hrefl : ∀ s, rely s s) (h : p.Meets rely guarantee mid s)
    (hk : ∀ b s', mid b s' → (k b).Meets rely guarantee post s') :
    (p >>= k).Meets rely guarantee post s := by
  induction p generalizing s with
  | done b => exact hk b s (h s (hrefl s))
  | act effect next ih =>
    intro s' hs
    exact ⟨(h s' hs).1, ih s' (h s' hs).2⟩

/-- A process that keeps a contract ends in what it says if there are no others. -/
theorem Meets.execute (hrefl : ∀ s, rely s s) {p : Process σ α}
    (h : p.Meets rely guarantee post s) : post (p.execute s).1 (p.execute s).2 := by
  induction p generalizing s with
  | done a => exact h s (hrefl s)
  | act effect next ih => exact ih s (h s (hrefl s)).2

/-- What every access keeps that is guaranteed, a process keeps that runs without others. -/
theorem Meets.execute_keeps (hrefl : ∀ s, rely s s) {p : Process σ α}
    (h : p.Meets rely guarantee post s) (kept : σ → σ → Prop) (hkeep : ∀ s, kept s s)
    (htrans : ∀ s₁ s₂ s₃, kept s₁ s₂ → kept s₂ s₃ → kept s₁ s₃)
    (hguarantee : ∀ s s', guarantee s s' → kept s s') : kept s (p.execute s).2 := by
  induction p generalizing s with
  | done a => exact hkeep s
  | act effect next ih =>
    obtain ⟨heffect, hnext⟩ := h s (hrefl s)
    exact htrans _ _ _ (hguarantee _ _ heffect) (ih s hnext)

theorem meets_pure (hpost : ∀ a s s', rely s s' → post a s → post a s') {a : α} (h : post a s) :
    (pure a : Process σ α).Meets rely guarantee post s :=
  fun s' hs => hpost a s s' hs h

/-- What holds before an access must not be disturbed, and what holds after it neither. -/
theorem meets_lift {x : StateM σ α} (pre : σ → Prop)
    (hpre : ∀ s s', rely s s' → pre s → pre s')
    (hpost : ∀ a s s', rely s s' → post a s → post a s')
    (h : ∀ s, pre s → guarantee s (x.run s).2 ∧ post (x.run s).1 (x.run s).2) (hs : pre s) :
    (lift x).Meets rely guarantee post s := by
  intro s' hrely
  obtain ⟨hguarantee, hend⟩ := h s' (hpre s s' hrely hs)
  exact ⟨hguarantee, fun s'' hs' => hpost _ _ _ hs' hend⟩

end

/-- Contracts of processes that fit together. -/
structure Contracts (ι σ : Type) where
  rely : ι → σ → σ → Prop
  guarantee : ι → σ → σ → Prop
  refl : ∀ i s, rely i s s
  trans : ∀ i s₁ s₂ s₃, rely i s₁ s₂ → rely i s₂ s₃ → rely i s₁ s₃
  compatible : ∀ i j, i ≠ j → ∀ s s', guarantee i s s' → rely j s s'

section

variable [DecidableEq ι] {s s' : σ} {ps : ι → Process σ α} {results : ι → α} (c : Contracts ι σ)
  {post : ι → α → σ → Prop}

/-- A turn is what its process guarantees, and all processes go on keeping their contracts. -/
theorem Contracts.meets_turn {effect : σ → σ} {next : σ → Process σ α} {i : ι}
    (hi : ps i = act effect next)
    (hmeets : ∀ i, (ps i).Meets (c.rely i) (c.guarantee i) (post i) s) :
    c.guarantee i s (effect s) ∧
      ∀ j, (Function.update ps i (next s) j).Meets (c.rely j) (c.guarantee j) (post j)
        (effect s) := by
  have hturn := hmeets i
  rw [hi] at hturn
  obtain ⟨hguarantee, hnext⟩ := hturn s (c.refl i s)
  refine ⟨hguarantee, fun j => ?_⟩
  by_cases hj : j = i
  · subst hj
    rw [Function.update_self]
    exact hnext
  · rw [Function.update_of_ne hj]
    exact (hmeets j).stable (c.trans j) (c.compatible i j (Ne.symm hj) s _ hguarantee)

/-- Processes that keep contracts that fit together end as the contracts say. -/
theorem Interleaved.meets (h : Interleaved s ps s' results)
    (hmeets : ∀ i, (ps i).Meets (c.rely i) (c.guarantee i) (post i) s) :
    ∀ i, post i (results i) s' := by
  induction h with
  | finished s results => exact fun i => hmeets i s (c.refl i s)
  | turn i hi _ ih => exact ih (c.meets_turn hi hmeets).2

/-- What every access of every process keeps from one state to the next, a run keeps. -/
theorem Interleaved.keeps (h : Interleaved s ps s' results)
    (hmeets : ∀ i, (ps i).Meets (c.rely i) (c.guarantee i) (post i) s) (kept : σ → σ → Prop)
    (hrefl : ∀ s, kept s s) (htrans : ∀ s₁ s₂ s₃, kept s₁ s₂ → kept s₂ s₃ → kept s₁ s₃)
    (hkept : ∀ i s s', c.guarantee i s s' → kept s s') : kept s s' := by
  induction h with
  | finished s results => exact hrefl s
  | turn i hi _ ih =>
    obtain ⟨hguarantee, hrest⟩ := c.meets_turn hi hmeets
    exact htrans _ _ _ (hkept i _ _ hguarantee) (ih hrest)

end

end Process

end PixelScale
