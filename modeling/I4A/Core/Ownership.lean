import Mathlib.Data.Fintype.Card
import Mathlib.Logic.ExistsUnique

/-! # Things in places

Every thing is in exactly one place, once. A step that takes a thing out of one
place and puts it into another one keeps this, whatever the places are.
-/

namespace I4A.Ownership

variable {Place Thing : Type*}

/-- Every thing is in one place, and nothing is anywhere twice. -/
structure Once (held : Place → List Thing) : Prop where
  nodup : ∀ place, (held place).Nodup
  one : ∀ b, ∃! place, b ∈ held place

/-- The thing goes from one place to another. -/
structure Move (held held' : Place → List Thing) (b : Thing) (source target : Place) : Prop where
  ne : source ≠ target
  out : (held source).Perm (b :: held' source)
  into : (held' target).Perm (b :: held target)
  frame : ∀ place, place ≠ source → place ≠ target → held' place = held place

namespace Once

variable {held held' : Place → List Thing} {b : Thing} {source target : Place}

theorem not_mem (h : Once held) (hmem : b ∈ held source) (hne : source ≠ target) :
    b ∉ held target := by
  intro htarget
  obtain ⟨place, -, unique⟩ := h.one b
  exact hne ((unique source hmem).trans (unique target htarget).symm)

theorem length_lt [Fintype Thing] (h : Once held) (hmem : b ∈ held source)
    (hne : source ≠ target) : (held target).length < Fintype.card Thing := by
  have hnodup : (b :: held target).Nodup :=
    List.nodup_cons.mpr ⟨h.not_mem hmem hne, h.nodup target⟩
  have hle := hnodup.length_le_card
  rw [List.length_cons] at hle
  omega

theorem move (h : Once held) (m : Move held held' b source target) : Once held' := by
  have hmem : b ∈ held source := m.out.mem_iff.mpr List.mem_cons_self
  have hsource := m.out.nodup_iff.mp (h.nodup source)
  have other : ∀ x, x ≠ b → ∀ place, x ∈ held' place ↔ x ∈ held place := by
    intro x hx place
    by_cases hs : place = source
    · rw [hs, m.out.mem_iff, List.mem_cons, or_iff_right hx]
    · by_cases ht : place = target
      · rw [ht, m.into.mem_iff, List.mem_cons, or_iff_right hx]
      · rw [m.frame place hs ht]
  constructor
  · intro place
    by_cases hs : place = source
    · rw [hs]
      exact (List.nodup_cons.mp hsource).2
    · by_cases ht : place = target
      · rw [ht, m.into.nodup_iff, List.nodup_cons]
        exact ⟨h.not_mem hmem m.ne, h.nodup target⟩
      · rw [m.frame place hs ht]
        exact h.nodup place
  · intro x
    by_cases hx : x = b
    · rw [hx]
      refine ⟨target, m.into.mem_iff.mpr List.mem_cons_self, ?_⟩
      intro place hplace
      by_contra ht
      by_cases hs : place = source
      · rw [hs] at hplace
        exact (List.nodup_cons.mp hsource).1 hplace
      · rw [m.frame place hs ht] at hplace
        exact h.not_mem hmem (Ne.symm hs) hplace
    · obtain ⟨place, hplace, unique⟩ := h.one x
      refine ⟨place, (other x hx place).mpr hplace, ?_⟩
      intro place' hplace'
      exact unique place' ((other x hx place').mp hplace')

end Once

end I4A.Ownership
