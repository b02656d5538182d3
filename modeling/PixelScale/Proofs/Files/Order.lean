import Mathlib.Data.List.Lex
import Mathlib.Data.Prod.Lex
import PixelScale.Files.Path

/-!
# The order of paths

Paths are ordered by their components, and components by a key: their kind first, then the code
points of a name. So the order is the lexicographic one of the keys. It tells two paths apart unless
they have the same components, and sorting paths of which no two have puts each strictly before
those behind it.

* `Path.key`, `Path.before_iff`: the order of paths is that of their keys.
* `Path.pairwise_mergeSort`: sorted paths.
-/

namespace PixelScale

theorem Text.before_iff (s t : Text) :
    Text.before s t = true ↔ s.map Char.toNat < t.map Char.toNat := by
  induction s generalizing t with
  | nil => cases t <;> simp [before]
  | cons c s ih =>
    cases t with
    | nil => simp [before]
    | cons d t =>
      rw [List.map_cons, List.map_cons, List.cons_lt_cons_iff, ← ih]
      simp [before, Char.toNat_inj]

namespace Path

namespace Component

/-- What a component is ordered by. -/
def key (c : Component) : ℕ ×ₗ List ℕ :=
  toLex (c.rank, match c with
    | name t => t.map Char.toNat
    | _ => [])

theorem before_iff (a b : Component) : a.before b = true ↔ a.key < b.key := by
  cases a <;> cases b <;> simp [before, rank, key, Prod.Lex.toLex_lt_toLex, Text.before_iff]

theorem key_injective : Function.Injective key := by
  intro a b h
  have htoNat : Function.Injective Char.toNat := fun _ _ => Char.toNat_inj.mp
  cases a <;> cases b <;>
    simp_all [rank, key, (List.map_injective_iff.mpr htoNat).eq_iff]

end Component

/-- What a path is ordered by. -/
def key (p : Path) : List (ℕ ×ₗ List ℕ) := p.components.map Component.key

theorem beforeBy_iff (as bs : List Component) :
    beforeBy as bs = true ↔ as.map Component.key < bs.map Component.key := by
  induction as generalizing bs with
  | nil => cases bs <;> simp [beforeBy]
  | cons a as ih =>
    cases bs with
    | nil => simp [beforeBy]
    | cons b bs =>
      rw [List.map_cons, List.map_cons, List.cons_lt_cons_iff, ← ih, ← Component.before_iff,
        Component.key_injective.eq_iff]
      simp [beforeBy]

theorem before_iff (p q : Path) : p.before q = true ↔ p.key < q.key :=
  beforeBy_iff p.components q.components

theorem key_eq_iff (p q : Path) : p.key = q.key ↔ p.same q := by
  rw [key, key, (List.map_injective_iff.mpr Component.key_injective).eq_iff, same, beq_iff_eq]

theorem not_before_iff (p q : Path) : (!q.before p) = true ↔ p.key ≤ q.key := by
  rw [Bool.not_eq_true', ← Bool.not_eq_true, before_iff, not_lt]

/-- Paths of which no two have the same components, in their order. -/
theorem pairwise_mergeSort {ps : List Path} (h : ps.Pairwise fun p q => ¬p.same q) :
    (ps.mergeSort fun p q => !q.before p).Pairwise fun p q => p.before q = true := by
  have hle : (ps.mergeSort fun p q => !q.before p).Pairwise fun p q => p.key ≤ q.key := by
    have hsorted := @List.pairwise_mergeSort Path (fun p q => !q.before p)
      (fun p q r hpq hqr => by
        rw [not_before_iff] at hpq hqr ⊢
        exact hpq.trans hqr)
      (fun p q => by
        rw [Bool.or_eq_true, not_before_iff, not_before_iff]
        exact le_total p.key q.key) ps
    simpa only [not_before_iff] using hsorted
  have hne : (ps.mergeSort fun p q => !q.before p).Pairwise fun p q => p.key ≠ q.key := by
    have hkeys : (ps.map key).Nodup := by
      rw [List.Nodup, List.pairwise_map]
      exact h.imp fun hsame hkey => hsame ((key_eq_iff _ _).mp hkey)
    have hperm := (List.mergeSort_perm ps fun p q => !q.before p).map key
    simpa only [List.Nodup, List.pairwise_map] using hperm.nodup_iff.mpr hkeys
  refine (List.pairwise_and_iff.mpr ⟨hle, hne⟩).imp fun {p q} hboth => ?_
  exact (before_iff p q).mpr (lt_of_le_of_ne hboth.1 hboth.2)

end Path

end PixelScale
