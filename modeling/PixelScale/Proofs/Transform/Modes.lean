import PixelScale.Proofs.Transform.Outcome

/-!
# Inserting and replacing

A run that inserts keeps every declaration and puts a converted copy right behind some of them; a
run that replaces gives some declarations their converted value and adds nothing. In both modes
only declarations that ask for a conversion are touched, what is made occurs once among the
siblings, and what is left alone although it asked for a conversion has it in a sibling. After
insertion this is so for every value. A replacement may take away the sibling that spoke against an
earlier one, but not if converting a converted value changes nothing.

* `Pass.Inserts`, `Pass.Replaces`: what happens to a declaration in either mode.
* `Pass.run_inserts`: a run that inserts is a conservative extension of the tree.
* `Pass.run_replaces`: a run that replaces touches only what it may.
-/

namespace PixelScale

open Stylesheet Text

namespace Pass

open Node

variable (p : Pass)

/-- A declaration and its copies after a run that inserts. -/
structure Inserts (selector : Option Text) (pairs : List (Text × Text)) (d new : Declaration)
    (copies : List Declaration) : Prop where
  kept : new = d
  single : copies.length ≤ 1
  /-- only a declaration that asks for a conversion has a copy -/
  eligible : copies ≠ [] → p.Eligible selector d
  copy : ∀ c ∈ copies, c.property = d.property ∧ c.important = d.important ∧ c.span = none ∧
    c.value = p.converter.replaceAll d.value
  once : ∀ c ∈ copies, pairs.count (c.property, c.value) = 1
  present : p.Eligible selector d → (d.property, p.converter.replaceAll d.value) ∈ pairs

/-- A declaration after a run that replaces. -/
structure Replaces (selector : Option Text) (pairs : List (Text × Text)) (d new : Declaration)
    (copies : List Declaration) : Prop where
  alone : copies = []
  property : new.property = d.property
  important : new.important = d.important
  span : new.span = d.span
  value : new.value = d.value ∨ new.value = p.converter.replaceAll d.value
  /-- only a declaration that asks for a conversion has another value -/
  eligible : new.value ≠ d.value → p.Eligible selector d
  once : new.value ≠ d.value → pairs.count (new.property, new.value) = 1
  present : p.Eligible selector d →
    p.converter.replaceAll (p.converter.replaceAll d.value) = p.converter.replaceAll d.value →
      (d.property, p.converter.replaceAll d.value) ∈ pairs

variable {p}

theorem Outcome.inserts (hinsert : p.replace = false) {selector : Option Text}
    {prs : List (Text × Text)} {d new : Declaration} {copies : List Declaration}
    (h : p.Outcome selector prs d new copies) : p.Inserts selector prs d new copies := by
  cases h with
  | left hpresent => exact ⟨rfl, by simp, by simp, by simp, by simp, (hpresent · (.inl hinsert))⟩
  | replaced hreplace =>
    rw [hinsert] at hreplace
    cases hreplace
  | inserted _ he honce =>
    exact ⟨rfl, by simp, fun _ => he, List.forall_mem_singleton.mpr ⟨rfl, rfl, rfl, rfl⟩,
      List.forall_mem_singleton.mpr honce, fun _ => mem_of_count_eq_one honce⟩

theorem Outcome.replaces (hreplace : p.replace = true) {selector : Option Text}
    {prs : List (Text × Text)} {d new : Declaration} {copies : List Declaration}
    (h : p.Outcome selector prs d new copies) : p.Replaces selector prs d new copies := by
  cases h with
  | left hpresent =>
    exact ⟨rfl, rfl, rfl, rfl, .inl rfl, fun h => absurd rfl h, fun h => absurd rfl h,
      fun he hself => hpresent he (.inr hself)⟩
  | replaced _ he honce =>
    exact ⟨rfl, rfl, rfl, rfl, .inr rfl, fun _ => he, fun _ => honce,
      fun _ _ => mem_of_count_eq_one honce⟩
  | inserted hinsert =>
    rw [hreplace] at hinsert
    cases hinsert

/-- A run that inserts keeps every node, block by block, and puts behind a declaration nothing but a
copy with its converted value, which is then the only sibling with this value. Every declaration
that asks for a conversion has a sibling with the converted value afterwards. Other than that only
the parameters of media queries change. -/
theorem run_inserts (hinsert : p.replace = false) (sheet : Stylesheet) :
    (p.run sheet).1.source = sheet.source ∧
      Becomes p.Inserts p.headAfter none (pairs (p.run sheet).1.nodes) sheet.nodes
        (p.run sheet).1.nodes ∧
      ∀ head, p.headAfter head = head ∨ p.mediaQuery = true ∧ head.name = media ∧
        p.headAfter head = { head with params := p.converter.replaceAll head.params } :=
  ⟨rfl, (p.becomes_run sheet).mono fun _ _ _ _ _ => Outcome.inserts hinsert, p.headAfter_cases⟩

/-- The second declaration of the rule would repeat the copy of the first one. -/
theorem run_inserts_font :
    ∃ (p : Pass) (sheet : Stylesheet), p.replace = false ∧
      sheet.nodes = [.atRule ⟨media, "(width: 64px)".toList, none⟩ [.rule "a".toList
        [.declaration ⟨"font".toList, "12px".toList, true, none⟩, .comment "b".toList,
          .declaration ⟨"font".toList, "16px".toList, false, none⟩]]] ∧
      (p.run sheet).1.nodes = [.atRule ⟨media, "(width: 1em)".toList, none⟩ [.rule "a".toList
        [.declaration ⟨"font".toList, "12px".toList, true, none⟩,
          .declaration ⟨"font".toList, "1em".toList, true, none⟩, .comment "b".toList,
          .declaration ⟨"font".toList, "16px".toList, false, none⟩]]] ∧
      (p.run sheet).1.source = sheet.source ∧
      Becomes p.Inserts p.headAfter none (pairs (p.run sheet).1.nodes) sheet.nodes
        (p.run sheet).1.nodes ∧
      ∀ head, p.headAfter head = head ∨ p.mediaQuery = true ∧ head.name = media ∧
        p.headAfter head = { head with params := p.converter.replaceAll head.params } := by
  refine ⟨⟨.custom fun _ => "1em".toList, .ofList ["*".toList], [], false, true⟩, ⟨none, _⟩, rfl,
    rfl, ?_, run_inserts rfl _⟩
  rfl

/-- A run that replaces keeps the shape of the tree and all of it but values and parameters. A value
changes only to the converted one and only where a conversion is asked for, and the declaration is
then the only sibling with this value. Every other declaration that asks for a conversion has a
sibling with the converted value afterwards, provided that converting this value once more leaves
it as it is. Parameters change only in media queries. -/
theorem run_replaces (hreplace : p.replace = true) (sheet : Stylesheet) :
    (p.run sheet).1.source = sheet.source ∧
      Becomes p.Replaces p.headAfter none (pairs (p.run sheet).1.nodes) sheet.nodes
        (p.run sheet).1.nodes ∧
      ∀ head, p.headAfter head = head ∨ p.mediaQuery = true ∧ head.name = media ∧
        p.headAfter head = { head with params := p.converter.replaceAll head.params } :=
  ⟨rfl, (p.becomes_run sheet).mono fun _ _ _ _ _ => Outcome.replaces hreplace, p.headAfter_cases⟩

/-- The first declaration of the rule is converted, the second one would repeat it, and the selector
of the other rule is denied. -/
theorem run_replaces_font :
    ∃ (p : Pass) (sheet : Stylesheet), p.replace = true ∧
      sheet.nodes = [.atRule ⟨media, "(width: 64px)".toList, none⟩ [.rule "a".toList
        [.declaration ⟨"font".toList, "12px".toList, true, none⟩, .comment "b".toList,
          .declaration ⟨"font".toList, "16px".toList, false, none⟩],
        .rule "b".toList [.declaration ⟨"font".toList, "12px".toList, true, none⟩]]] ∧
      (p.run sheet).1.nodes = [.atRule ⟨media, "(width: 1em)".toList, none⟩ [.rule "a".toList
        [.declaration ⟨"font".toList, "1em".toList, true, none⟩, .comment "b".toList,
          .declaration ⟨"font".toList, "16px".toList, false, none⟩],
        .rule "b".toList [.declaration ⟨"font".toList, "12px".toList, true, none⟩]]] ∧
      (p.run sheet).1.source = sheet.source ∧
      Becomes p.Replaces p.headAfter none (pairs (p.run sheet).1.nodes) sheet.nodes
        (p.run sheet).1.nodes ∧
      ∀ head, p.headAfter head = head ∨ p.mediaQuery = true ∧ head.name = media ∧
        p.headAfter head = { head with params := p.converter.replaceAll head.params } := by
  refine ⟨⟨.custom fun _ => "1em".toList, .ofList ["*".toList], [.literal "b".toList], true, true⟩,
    ⟨none, _⟩, rfl, rfl, ?_, run_replaces rfl _⟩
  rfl

end Pass

end PixelScale
