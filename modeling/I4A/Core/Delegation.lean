import I4A.Core.Walk
import Mathlib.Data.Nat.Find
import Mathlib.Data.Set.Basic

/-! # Delegated blocks

A tree of nodes in which every node holds a block of addresses, cut into parts
that do not meet, and hands at most one node each part. Blocks that share an
address then belong to an ancestor and its descendant, and the nodes whose
block contains an address are the ancestors of one of them. A walk that goes
to the child with the address, if there is one, and to the parent otherwise
finds that node from everywhere.
-/

namespace I4A

open Relation StateTransition

structure Delegation (α β X : Type*) where
  member : α → Prop
  /-- `child a b c`: node `a` handed its part `b` to node `c`. -/
  child : α → β → α → Prop
  block : α → Set X
  part : α → β → Set X
  /-- Children come after their parents. -/
  rank : α → Nat
  root : α
  member_root : member root
  parent : ∀ c, member c → c ≠ root → ∃ a b, member a ∧ child a b c
  rank_lt : ∀ {a b c}, child a b c → rank a < rank c
  block_child : ∀ {a b c}, child a b c → block c = part a b
  part_subset : ∀ a b, part a b ⊆ block a
  part_disjoint : ∀ {a b b' x}, x ∈ part a b → x ∈ part a b' → b = b'
  one_child : ∀ {a b c c'}, child a b c → child a b c' → c = c'

namespace Delegation

variable {α β X : Type*} (D : Delegation α β X) {a c d : α} {x : X}

def Edge (a c : α) : Prop := ∃ b, D.child a b c

/-- `c` is `a` or was provisioned below it. -/
abbrev Above : α → α → Prop := ReflTransGen D.Edge

variable {D}

theorem block_mono (h : D.Above a c) : D.block c ⊆ D.block a := by
  induction h with
  | refl => exact subset_rfl
  | tail _ edge ih =>
      obtain ⟨b, hb⟩ := edge
      rw [D.block_child hb]
      exact (D.part_subset _ b).trans ih

theorem rank_le (h : D.Above a c) : D.rank a ≤ D.rank c := by
  induction h with
  | refl => exact Nat.le_refl _
  | tail _ edge ih =>
      obtain ⟨b, hb⟩ := edge
      exact ih.trans (D.rank_lt hb).le

theorem root_above (h : D.member c) : D.Above D.root c := by
  induction hr : D.rank c using Nat.strong_induction_on generalizing c with
  | _ r ih =>
      by_cases hroot : c = D.root
      · rw [hroot]
      · obtain ⟨a, b, ha, hchild⟩ := D.parent c h hroot
        have hup := ih (D.rank a) (by rw [← hr]; exact D.rank_lt hchild) ha rfl
        exact hup.tail ⟨b, hchild⟩

theorem Above.cases_part (h : D.Above a c) :
    a = c ∨ ∃ b d, D.child a b d ∧ D.Above d c := by
  rcases h.cases_head with rfl | ⟨d, ⟨b, hb⟩, hd⟩
  · exact .inl rfl
  · exact .inr ⟨b, d, hb, hd⟩

/-- Two siblings' blocks do not meet: an address of `c`'s block under `a` belongs to the part
`c` was given. -/
theorem Above.of_child (h : D.Above a d) {b : β} (hchild : D.child a b c) (hd : x ∈ D.block d)
    (hc : x ∈ D.block c) : a = d ∨ D.Above c d := by
  rcases h.cases_part with rfl | ⟨b', c', hb', hd'⟩
  · exact .inl rfl
  · right
    have hx : x ∈ D.part a b := by rwa [← D.block_child hchild]
    have hx' : x ∈ D.part a b' := by
      rw [← D.block_child hb']
      exact block_mono hd' hd
    obtain rfl : b = b' := D.part_disjoint hx hx'
    obtain rfl : c = c' := D.one_child hchild hb'
    exact hd'

/-- Overlapping blocks are nested by delegation. -/
theorem above_or_above (ha : D.member a) (hc : D.member c) (hxa : x ∈ D.block a)
    (hxc : x ∈ D.block c) : D.Above a c ∨ D.Above c a := by
  induction hr : D.rank a + D.rank c using Nat.strong_induction_on generalizing a c with
  | _ r ih =>
      wlog hle : D.rank a ≤ D.rank c generalizing a c
      · exact (this hc ha hxc hxa (by omega) (by omega)).symm
      by_cases hroot : c = D.root
      · rw [hroot]
        exact .inr (root_above ha)
      · obtain ⟨p, b, hp, hchild⟩ := D.parent c hc hroot
        have hlt := D.rank_lt hchild
        have hxp : x ∈ D.block p := by
          rw [D.block_child hchild] at hxc
          exact D.part_subset p b hxc
        rcases ih (D.rank a + D.rank p) (by omega) ha hp hxa hxp rfl with hap | hpa
        · exact .inl (hap.tail ⟨b, hchild⟩)
        · rcases hpa.of_child hchild hxa hxc with rfl | hca
          · exact .inl (ReflTransGen.single ⟨b, hchild⟩)
          · exact .inr hca

theorem eq_of_above_of_rank_le (h : D.Above a c) (hrank : D.rank c ≤ D.rank a) : a = c := by
  rcases h.cases_part with rfl | ⟨b, d, hchild, hd⟩
  · rfl
  · have := D.rank_lt hchild
    have := rank_le hd
    omega

/-! ## Kept addresses -/

/-- What is in a part of a node is in a part of every node above it. -/
theorem Above.mem_part (h : D.Above a c) {b : β} (hx : x ∈ D.part c b) :
    ∃ b', x ∈ D.part a b' := by
  rcases h.cases_part with rfl | ⟨b', d, hchild, hd⟩
  · exact ⟨b, hx⟩
  · refine ⟨b', ?_⟩
    rw [← D.block_child hchild]
    exact block_mono hd (D.part_subset c b hx)

/-- An address of a part that the node with the part does not cut up any further is in no part of a
node below. -/
theorem Above.eq_of_kept (h : D.Above a c) {b b' : β} (hx : x ∈ D.part a b)
    (hx' : x ∈ D.part c b') (kept : ∀ d, D.child a b d → ∀ b'', x ∉ D.part d b'') : a = c := by
  rcases h.cases_part with rfl | ⟨b₁, d, hchild, hd⟩
  · rfl
  · have hx₁ : x ∈ D.part a b₁ := by
      rw [← D.block_child hchild]
      exact block_mono hd (D.part_subset c b' hx')
    obtain rfl : b = b₁ := D.part_disjoint hx hx₁
    obtain ⟨b₂, hx₂⟩ := hd.mem_part hx'
    exact absurd hx₂ (kept d hchild b₂)

/-- Kept addresses of two parts are addresses of one. -/
theorem eq_of_both_kept (ha : D.member a) (hc : D.member c) {b b' : β} (hx : x ∈ D.part a b)
    (hx' : x ∈ D.part c b') (kept : ∀ d, D.child a b d → ∀ b'', x ∉ D.part d b'')
    (kept' : ∀ d, D.child c b' d → ∀ b'', x ∉ D.part d b'') : a = c ∧ b = b' := by
  have hac : a = c := by
    rcases above_or_above ha hc (D.part_subset a b hx) (D.part_subset c b' hx') with h | h
    · exact h.eq_of_kept hx hx' kept
    · exact (h.eq_of_kept hx' hx kept').symm
  subst hac
  exact ⟨rfl, D.part_disjoint hx hx'⟩

/-! ## Owners of an address -/

/-- The nodes whose block contains the address are above `d`. -/
structure Owner (D : Delegation α β X) (x : X) (d : α) : Prop where
  member : D.member d
  mem : x ∈ D.block d ∨ d = D.root
  above : ∀ a, D.member a → x ∈ D.block a → D.Above a d

theorem owner_of_part (hd : D.member d) {b : β} (hx : x ∈ D.part d b)
    (kept : ∀ c, ¬ D.child d b c) : D.Owner x d where
  member := hd
  mem := .inl (D.part_subset d b hx)
  above a ha hxa := by
    rcases above_or_above ha hd hxa (D.part_subset d b hx) with had | hda
    · exact had
    · rcases hda.cases_part with rfl | ⟨b', c, hchild, hca⟩
      · exact .refl
      · have hx' : x ∈ D.part d b' := by
          rw [← D.block_child hchild]
          exact block_mono hca hxa
        obtain rfl : b = b' := D.part_disjoint hx hx'
        exact absurd hchild (kept c)

/-- With finitely many ranks every address has an owner. -/
theorem exists_owner {bound : Nat} (ranks : ∀ a, D.member a → D.rank a < bound) (x : X) :
    ∃ d, D.Owner x d := by
  classical
  by_cases hnone : ∃ a, D.member a ∧ x ∈ D.block a
  · let deep (r : Nat) : Prop := ∃ a, D.member a ∧ x ∈ D.block a ∧ D.rank a = r
    obtain ⟨a, ha, hxa⟩ := hnone
    have hdeep : deep (Nat.findGreatest deep bound) :=
      Nat.findGreatest_spec (ranks a ha).le ⟨a, ha, hxa, rfl⟩
    obtain ⟨d, hd, hxd, hrank⟩ := hdeep
    refine ⟨d, hd, .inl hxd, fun c hc hxc => ?_⟩
    rcases above_or_above hc hd hxc hxd with hcd | hdc
    · exact hcd
    · have hle : D.rank c ≤ D.rank d := by
        rw [hrank]
        exact Nat.le_findGreatest (ranks c hc).le ⟨c, hc, hxc, rfl⟩
      rw [eq_of_above_of_rank_le hdc hle]
  · exact ⟨D.root, D.member_root, .inr rfl, fun a ha hxa => absurd ⟨a, ha, hxa⟩ hnone⟩

/-! ## The walk to the owner -/

/-- A next hop that goes down to the child with the address and up to the parent otherwise,
except at the owner. -/
structure Follows (D : Delegation α β X) (x : X) (d : α) (next : α → Option α) : Prop where
  down : ∀ a b c, D.member a → D.child a b c → x ∈ D.block c → next a = some c
  up : ∀ a, D.member a → a ≠ d → a ≠ D.root → x ∉ D.block a →
    ∃ p b, D.member p ∧ D.child p b a ∧ next a = some p

theorem Owner.reaches {next : α → Option α} (owner : D.Owner x d) (follows : D.Follows x d next)
    (members : ∀ a b c, D.child a b c → D.member c) (ha : D.member a) : Reaches next a d := by
  induction hr : D.rank a using Nat.strong_induction_on generalizing a with
  | _ r ih =>
      by_cases had : a = d
      · rw [had]
        exact .refl
      by_cases hx : x ∈ D.block a
      · -- from here on every node is above the owner
        have habove := owner.above a ha hx
        have hxd : x ∈ D.block d := by
          rcases owner.mem with hxd | hroot
          · exact hxd
          · rw [hroot] at habove had
            exact absurd (eq_of_above_of_rank_le habove (rank_le (root_above ha))) had
        clear ih hr had hx
        induction habove using ReflTransGen.head_induction_on with
        | refl => exact .refl
        | head edge below ih =>
            obtain ⟨b, hchild⟩ := edge
            have hc := members _ _ _ hchild
            have hxc := block_mono below hxd
            exact .head (follows.down _ b _ ha hchild hxc) (ih hc)
      · by_cases hroot : a = D.root
        · rcases owner.mem with hxd | hd
          · rw [hroot] at hx
            exact absurd (block_mono (root_above owner.member) hxd) hx
          · exact absurd (hroot.trans hd.symm) had
        · obtain ⟨p, b, hp, hchild, hnext⟩ := follows.up a ha had hroot hx
          exact .head hnext (ih (D.rank p) (by rw [← hr]; exact D.rank_lt hchild) hp rfl)

end Delegation

end I4A
