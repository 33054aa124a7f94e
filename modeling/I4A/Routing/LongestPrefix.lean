import I4A.Core.Prefix
import I4A.Routing.Table
import Mathlib.Data.Set.Card

/-! # The routing table refines longest-prefix match

`RouteMap` says what the table is for: a default gateway and a finite map from
(network, mask) keys to outputs, looked up from the longest prefix down. The
sixteen-slot array of `routing_table.c` refines it over every sequence of
calls; the order by mask is what makes the first match the longest one, and
what makes the early stop of the duplicate scan sound.
-/

namespace I4A

/-- A key of the abstract map: network and mask. -/
abbrev RouteKey := BitVec 32 × BitVec 32

/-- A default gateway and a map from keys to outputs. -/
structure RouteMap where
  gateway : UInt8
  routes : RouteKey → Option UInt8

namespace RouteMap

def init (gateway : UInt8) : RouteMap := ⟨gateway, fun _ => none⟩

/-- The keys present in the map. -/
def keys (m : RouteMap) : Set RouteKey := {k | m.routes k ≠ none}

/-- Overwrite the output of a key; `0/0` is the default gateway; a new key is not added to a
map that already holds sixteen. -/
noncomputable def add (m : RouteMap) (network mask : BitVec 32) (output : UInt8) : RouteMap :=
  if network = 0 ∧ mask = 0 then { m with gateway := output }
  else if m.routes (network, mask) = none ∧ m.keys.ncard = maxRoutingEntries then m
  else { m with routes := Function.update m.routes (network, mask) (some output) }

/-- Delete exactly the keys with this output. -/
def removeByOutput (m : RouteMap) (output : UInt8) : RouteMap :=
  { m with routes := fun k => if m.routes k = some output then none else m.routes k }

/-- Longest-prefix lookup: try the prefix lengths from 32 down to 0, fall back to the default
gateway. -/
def lookup (m : RouteMap) (ip : BitVec 32) : UInt8 :=
  ((List.range 33).reverse.findSome? fun k =>
    m.routes (ip &&& Prefix.mask 32 k, Prefix.mask 32 k)).getD m.gateway

end RouteMap

/-! ## Searching the prefix lengths downwards -/

private theorem findSome?_range_none {α : Type} {f : Nat → Option α} (n : Nat)
    (h : ∀ k, k < n → f k = none) : (List.range n).reverse.findSome? f = none := by
  rw [List.findSome?_eq_none_iff]
  intro k hk
  rw [List.mem_reverse, List.mem_range] at hk
  exact h k hk

private theorem findSome?_range_highest {α : Type} {f : Nat → Option α} {n k : Nat} {v : α}
    (hk : k < n) (hf : f k = some v) (above : ∀ j, k < j → j < n → f j = none) :
    (List.range n).reverse.findSome? f = some v := by
  induction n with
  | zero => omega
  | succ n ih =>
      rw [List.range_succ, List.reverse_append, List.reverse_singleton, List.singleton_append,
        List.findSome?_cons]
      by_cases hkn : k = n
      · subst hkn
        rw [hf]
      · rw [above n (by omega) (by omega)]
        exact ih (by omega) (fun j hkj hjn => above j hkj (by omega))

namespace RouteMap

theorem lookup_longest {m : RouteMap} {ip : BitVec 32} {k : Nat} {o : UInt8} (hk : k ≤ 32)
    (hit : m.routes (ip &&& Prefix.mask 32 k, Prefix.mask 32 k) = some o)
    (above : ∀ j, k < j → j ≤ 32 →
      m.routes (ip &&& Prefix.mask 32 j, Prefix.mask 32 j) = none) :
    m.lookup ip = o := by
  rw [lookup, findSome?_range_highest (by omega) hit (fun j hkj hj => above j hkj (by omega))]
  rfl

theorem lookup_gateway {m : RouteMap} {ip : BitVec 32}
    (miss : ∀ k, k ≤ 32 → m.routes (ip &&& Prefix.mask 32 k, Prefix.mask 32 k) = none) :
    m.lookup ip = m.gateway := by
  rw [lookup, findSome?_range_none 33 (fun k hk => miss k (by omega))]
  rfl

end RouteMap

namespace RtRoutingEntry

def key (e : RtRoutingEntry) : RouteKey := (e.network, e.mask)

end RtRoutingEntry

/-! ## The order of the entries -/

/-- What every call of `routing_table_add` and `routing_table_remove_by_output` keeps: distinct
keys, and masks that do not increase. -/
structure RtRoutingTable.Sorted (table : RtRoutingTable) : Prop where
  count_le : table.count ≤ maxRoutingEntries
  ordered : table.used.Pairwise fun a b => b.mask ≤ a.mask
  distinct : (table.used.map RtRoutingEntry.key).Nodup

/-- A call of `routing_table_add` with this key finds a slot. -/
def RtRoutingTable.HasRoom (table : RtRoutingTable) (key : RouteKey) : Prop :=
  table.count < maxRoutingEntries ∨ ∃ e ∈ table.used, e.key = key

private theorem masks_behind {l₁ l₂ : List RtRoutingEntry} {mask : BitVec 32}
    (ordered : (l₁ ++ l₂).Pairwise fun a b => b.mask ≤ a.mask)
    (first : ∀ e rest, l₂ = e :: rest → e.mask < mask) : ∀ e ∈ l₂, e.mask < mask := by
  cases l₂ with
  | nil => simp
  | cons x rest =>
      have hx := first x rest rfl
      intro e he
      rcases List.mem_cons.mp he with rfl | he
      · exact hx
      · have hle := (List.pairwise_cons.mp (List.pairwise_append.mp ordered).2.1).1 e he
        exact Nat.lt_of_le_of_lt (BitVec.le_def.mp hle) hx

/-- Where the scan stops in front of an entry with a smaller mask, no entry has the key. -/
private theorem new_key {l₁ l₂ : List RtRoutingEntry} {network mask : BitVec 32}
    (ordered : (l₁ ++ l₂).Pairwise fun a b => b.mask ≤ a.mask)
    (before : ∀ e ∈ l₁, ¬ RtRoutingTable.SameKey network mask e ∧ mask ≤ e.mask)
    (first : ∀ e rest, l₂ = e :: rest → e.mask < mask) :
    ∀ e ∈ l₁ ++ l₂, e.key ≠ (network, mask) := by
  intro x hx hk
  obtain ⟨hn, hm⟩ := Prod.mk.inj hk
  rcases List.mem_append.mp hx with hx | hx
  · exact (before x hx).1 ⟨hn, hm⟩
  · have hlt := masks_behind ordered first x hx
    rw [hm] at hlt
    exact absurd hlt (BitVec.lt_irrefl _)

namespace RtRoutingTable.Sorted

variable {table : RtRoutingTable}

theorem init (gateway : UInt8) : (routingTableInit gateway).Sorted :=
  ⟨Nat.zero_le _, .nil, .nil⟩

/-- No entry that covers the address has a larger mask than the first one that does. -/
theorem mask_le_first (h : table.Sorted) {ip : BitVec 32} {first : RtRoutingEntry}
    (hfind : table.used.find? (·.covers ip) = some first) {e : RtRoutingEntry}
    (he : e ∈ table.used) (hcov : e.covers ip = true) : e.mask ≤ first.mask := by
  have hord := h.ordered
  obtain ⟨-, before, behind, hused, hmiss⟩ := List.find?_eq_some_iff_append.mp hfind
  rw [hused, List.mem_append, List.mem_cons] at he
  rw [hused] at hord
  rcases he with hb | rfl | hb
  · simpa [hcov] using hmiss e hb
  · exact BitVec.le_refl _
  · exact (List.pairwise_cons.mp (List.pairwise_append.mp hord).2.1).1 e hb

/-- An entry is found again unless one with a larger mask covers the address too. -/
theorem route_entry (h : table.Sorted) {e : RtRoutingEntry} (he : e ∈ table.used)
    {ip : BitVec 32} (hcov : e.covers ip = true)
    (longest : ∀ e' ∈ table.used, e'.covers ip = true → e'.mask ≤ e.mask) :
    routingTableRoute table ip = e.output := by
  rw [routingTableRoute]
  cases hfind : table.used.find? (·.covers ip) with
  | none => exact absurd hcov (List.find?_eq_none.mp hfind e he)
  | some first =>
      have hmem := List.mem_of_find?_eq_some hfind
      have hfirst := List.find?_some hfind
      suffices hsame : first = e by rw [hsame]
      have hmask : first.mask = e.mask :=
        BitVec.le_antisymm (longest first hmem hfirst) (h.mask_le_first hfind he hcov)
      have hkey : first.key = e.key := by
        simp only [RtRoutingEntry.covers, decide_eq_true_eq] at hfirst hcov
        rw [RtRoutingEntry.key, RtRoutingEntry.key, ← hfirst, ← hcov, hmask]
      exact List.inj_on_of_nodup_map h.distinct hmem he hkey

theorem add (h : table.Sorted) (network mask : BitVec 32) (output : UInt8) :
    (routingTableAdd table network mask output).Sorted := by
  by_cases hdef : network = 0 ∧ mask = 0
  · obtain ⟨rfl, rfl⟩ := hdef
    rw [add_default]
    exact ⟨h.count_le, h.ordered, h.distinct⟩
  refine ⟨add_count_le h.count_le network mask output, ?_, ?_⟩
  all_goals
    obtain ⟨l₁, l₂, hused, hpre, hend⟩ := add_cases h.count_le hdef output
    have hord := h.ordered
    have hdist := h.distinct
    rw [hused] at hord hdist
    rcases hend with ⟨e, rest, rfl, hsame, hadd, -⟩ | ⟨-, -, heq⟩ | ⟨hsmall, -, hadd, -⟩
  · rw [hadd]
    simpa [List.pairwise_append, hsame.2] using hord
  · rw [heq]
    exact h.ordered
  · rw [hadd]
    obtain ⟨ho₁, ho₂, ho₁₂⟩ := List.pairwise_append.mp hord
    refine List.pairwise_append.mpr ⟨ho₁, List.pairwise_cons.mpr ⟨?_, ho₂⟩, ?_⟩
    · intro x hx
      exact BitVec.le_of_lt (masks_behind hord hsmall x hx)
    · intro a ha b hb
      rcases List.mem_cons.mp hb with rfl | hb
      · exact (hpre a ha).2
      · exact ho₁₂ a ha b hb
  · rw [hadd]
    simpa [RtRoutingEntry.key, hsame.1, hsame.2] using hdist
  · rw [heq]
    exact h.distinct
  · rw [hadd, List.map_append, List.map_cons, List.nodup_middle, List.nodup_cons,
      ← List.map_append]
    refine ⟨?_, hdist⟩
    intro hmem
    obtain ⟨x, hx, hk⟩ := List.mem_map.mp hmem
    exact new_key hord hpre hsmall x hx hk

/-- With room, or with the key in it already, the table holds the new entry. -/
theorem mem_add (h : table.Sorted) {network mask : BitVec 32} (hdef : ¬ (network = 0 ∧ mask = 0))
    (room : table.HasRoom (network, mask)) (output : UInt8) :
    ⟨network, mask, output⟩ ∈ (routingTableAdd table network mask output).used := by
  obtain ⟨l₁, l₂, hused, hpre, hend⟩ := add_cases h.count_le hdef output
  have hord := h.ordered
  rw [hused] at hord
  rcases hend with ⟨e, rest, -, -, hadd, -⟩ | ⟨hsmall, hfull, -⟩ | ⟨-, -, hadd, -⟩
  · rw [hadd]
    simp
  · rcases room with hroom | ⟨e, he, hkey⟩
    · omega
    · rw [hused] at he
      exact absurd hkey (new_key hord hpre hsmall e he)
  · rw [hadd]
    simp

/-- An entry with another key stays. -/
theorem mem_add_of_mem (h : table.Sorted) {network mask : BitVec 32}
    (hdef : ¬ (network = 0 ∧ mask = 0)) {output : UInt8} {e : RtRoutingEntry}
    (he : e ∈ table.used) (hkey : e.key ≠ (network, mask)) :
    e ∈ (routingTableAdd table network mask output).used := by
  obtain ⟨l₁, l₂, hused, -, hend⟩ := add_cases h.count_le hdef output
  rw [hused] at he
  rcases hend with ⟨e', rest, rfl, hsame, hadd, -⟩ | ⟨-, -, heq⟩ | ⟨-, -, hadd, -⟩
  · rw [hadd]
    rw [List.mem_append, List.mem_cons] at he ⊢
    rcases he with hbefore | rfl | hbehind
    · exact .inl hbefore
    · exact absurd (by rw [RtRoutingEntry.key, hsame.1, hsame.2]) hkey
    · exact .inr (.inr hbehind)
  · rw [heq, hused]
    exact he
  · rw [hadd]
    rw [List.mem_append] at he
    rw [List.mem_append, List.mem_cons]
    rcases he with hbefore | hbehind
    · exact .inl hbefore
    · exact .inr (.inr hbehind)

/-- No other entry is new. -/
theorem mem_of_add (h : table.Sorted) {network mask : BitVec 32}
    (hdef : ¬ (network = 0 ∧ mask = 0)) {output : UInt8} {e : RtRoutingEntry}
    (he : e ∈ (routingTableAdd table network mask output).used) :
    e ∈ table.used ∨ e = ⟨network, mask, output⟩ := by
  obtain ⟨l₁, l₂, hused, -, hend⟩ := add_cases h.count_le hdef output
  rcases hend with ⟨e', rest, rfl, -, hadd, -⟩ | ⟨-, -, heq⟩ | ⟨-, -, hadd, -⟩
  · rw [hadd, List.mem_append, List.mem_cons] at he
    rw [hused, List.mem_append, List.mem_cons]
    rcases he with hbefore | hnew | hbehind
    · exact .inl (.inl hbefore)
    · exact .inr hnew
    · exact .inl (.inr (.inr hbehind))
  · rw [heq] at he
    exact .inl he
  · rw [hadd, List.mem_append, List.mem_cons] at he
    rw [hused, List.mem_append]
    rcases he with hbefore | hnew | hbehind
    · exact .inl (.inl hbefore)
    · exact .inr hnew
    · exact .inl (.inr hbehind)

/-- Without room the table stays as it is. -/
theorem add_full (h : table.Sorted) {network mask : BitVec 32} (hdef : ¬ (network = 0 ∧ mask = 0))
    (full : ¬ table.HasRoom (network, mask)) (output : UInt8) :
    routingTableAdd table network mask output = table := by
  obtain ⟨l₁, l₂, hused, -, hend⟩ := add_cases h.count_le hdef output
  rcases hend with ⟨e, rest, rfl, hsame, -, -⟩ | ⟨-, -, heq⟩ | ⟨-, hlt, -, -⟩
  · have hkey : e.key = (network, mask) := by rw [RtRoutingEntry.key, hsame.1, hsame.2]
    exact absurd (.inr ⟨e, by rw [hused]; simp, hkey⟩) full
  · exact heq
  · exact absurd (.inl hlt) full

theorem remove (h : table.Sorted) (output : UInt8) :
    (routingTableRemoveByOutput table output).Sorted := by
  have hused := remove_used h.count_le output
  refine ⟨remove_count_le h.count_le output, ?_, ?_⟩
  · rw [hused]
    exact h.ordered.filter _
  · rw [hused]
    exact h.distinct.sublist (List.filter_sublist.map _)

end RtRoutingTable.Sorted

/-! ## The refinement relation -/

/-- A network as `get_node_subnet` and the root build them: a contiguous prefix mask and no
host bits. -/
def ProperNetwork (network mask : BitVec 32) : Prop :=
  ∃ k, k ≤ 32 ∧ mask = Prefix.mask 32 k ∧ network &&& mask = network

/-- The array implements the map, and keeps the order that makes first match longest match. -/
structure RtRoutingTable.Refines (table : RtRoutingTable) (m : RouteMap) : Prop where
  count_le : table.count ≤ maxRoutingEntries
  ordered : table.used.Pairwise fun a b => b.mask ≤ a.mask
  distinct : (table.used.map RtRoutingEntry.key).Nodup
  proper : ∀ e ∈ table.used, ProperNetwork e.network e.mask
  gateway : table.defaultGateway = m.gateway
  routes : ∀ k o, m.routes k = some o ↔ ∃ e ∈ table.used, e.key = k ∧ e.output = o

namespace RtRoutingTable.Refines

variable {table : RtRoutingTable} {m : RouteMap}

theorem init (gateway : UInt8) : (routingTableInit gateway).Refines (RouteMap.init gateway) where
  count_le := Nat.zero_le _
  ordered := .nil
  distinct := .nil
  proper := by simp
  gateway := rfl
  routes := by simp [RouteMap.init]

theorem sorted (h : table.Refines m) : table.Sorted := ⟨h.count_le, h.ordered, h.distinct⟩

theorem routes_none (h : table.Refines m) (k : RouteKey) :
    m.routes k = none ↔ ∀ e ∈ table.used, e.key ≠ k := by
  rw [Option.eq_none_iff_forall_ne_some]
  constructor
  · intro hn e he hk
    exact hn e.output ((h.routes k e.output).mpr ⟨e, he, hk, rfl⟩)
  · intro hn o ho
    obtain ⟨e, he, hk, -⟩ := (h.routes k o).mp ho
    exact hn e he hk

/-- The map has as many keys as the table has used entries. -/
theorem keys_ncard (h : table.Refines m) : m.keys.ncard = table.count := by
  have hkeys : m.keys = ((table.used.map RtRoutingEntry.key).toFinset : Set RouteKey) := by
    ext k
    simp only [RouteMap.keys, Set.mem_ofPred_eq, ne_eq, h.routes_none, not_forall, not_not,
      List.coe_toFinset, List.mem_map, exists_prop]
  rw [hkeys, Set.ncard_coe_finset, List.toFinset_card_of_nodup h.distinct, List.length_map,
    RtRoutingTable.used_length h.count_le]

/-- First match in the array is longest match in the map. -/
theorem route_eq_lookup (h : table.Refines m) (ip : BitVec 32) :
    routingTableRoute table ip = m.lookup ip := by
  have covers_of_key : ∀ k, ∀ e ∈ table.used,
      e.key = (ip &&& Prefix.mask 32 k, Prefix.mask 32 k) → e.covers ip = true := by
    intro k e _ hk
    obtain ⟨hn, hm⟩ := Prod.mk.inj hk
    simp [RtRoutingEntry.covers, hn, hm]
  rw [routingTableRoute]
  cases hfind : table.used.find? (·.covers ip) with
  | none =>
      rw [List.find?_eq_none] at hfind
      dsimp only
      rw [h.gateway]
      refine (RouteMap.lookup_gateway fun k _ => ?_).symm
      rw [h.routes_none]
      intro e he hk
      exact hfind e he (covers_of_key k e he hk)
  | some e =>
      have hmem := List.mem_of_find?_eq_some hfind
      have hcov := List.find?_some hfind
      obtain ⟨k, hk, hmask, -⟩ := h.proper e hmem
      have hnet : ip &&& e.mask = e.network := by simpa [RtRoutingEntry.covers] using hcov
      have hkey : e.key = (ip &&& Prefix.mask 32 k, Prefix.mask 32 k) := by
        rw [RtRoutingEntry.key, ← hnet, hmask]
      refine (RouteMap.lookup_longest hk
        ((h.routes _ _).mpr ⟨e, hmem, hkey, rfl⟩) fun j hkj hj => ?_).symm
      rw [h.routes_none]
      intro e' he' hk'
      have hmask' : e'.mask = Prefix.mask 32 j := (Prod.mk.inj hk').2
      have hlonger : e.mask < e'.mask := by
        rw [hmask, hmask']
        exact Prefix.mask_lt_mask hkj hj
      have hle := h.sorted.mask_le_first hfind he' (covers_of_key j e' he' hk')
      exact absurd hlonger (BitVec.not_lt.mpr hle)

/-- Writing one key among entries that do not have it updates the map at that key. -/
private theorem routes_written {l₁ l₂ : List RtRoutingEntry} {routes : RouteKey → Option UInt8}
    {network mask : BitVec 32} {output : UInt8}
    (others : ∀ e ∈ l₁ ++ l₂, e.key ≠ (network, mask))
    (before : ∀ k o, k ≠ (network, mask) →
      (routes k = some o ↔ ∃ e ∈ l₁ ++ l₂, e.key = k ∧ e.output = o)) (k : RouteKey) (o : UInt8) :
    Function.update routes (network, mask) (some output) k = some o ↔
      ∃ e ∈ l₁ ++ ⟨network, mask, output⟩ :: l₂, e.key = k ∧ e.output = o := by
  by_cases hk : k = (network, mask)
  · subst hk
    rw [Function.update_self]
    constructor
    · intro ho
      exact ⟨⟨network, mask, output⟩, by simp, rfl, Option.some.inj ho⟩
    · rintro ⟨x, hx, hkx, rfl⟩
      rcases List.mem_append.mp hx with hx | hx
      · exact absurd hkx (others x (List.mem_append_left _ hx))
      · rcases List.mem_cons.mp hx with rfl | hx
        · rfl
        · exact absurd hkx (others x (List.mem_append_right _ hx))
  · rw [Function.update_of_ne hk, before k o hk]
    have hne : RtRoutingEntry.key ⟨network, mask, output⟩ ≠ k := fun hk' => hk hk'.symm
    simp [or_and_right, exists_or, hne]

/-- `routing_table_add` against the map. -/
theorem add (h : table.Refines m) {network mask : BitVec 32}
    (proper : ProperNetwork network mask) (output : UInt8) :
    (routingTableAdd table network mask output).Refines (m.add network mask output) := by
  by_cases hdef : network = 0 ∧ mask = 0
  · obtain ⟨rfl, rfl⟩ := hdef
    rw [add_default, RouteMap.add, if_pos ⟨rfl, rfl⟩]
    exact ⟨h.count_le, h.ordered, h.distinct, h.proper, rfl, h.routes⟩
  have hsorted := h.sorted.add network mask output
  have hgate : (routingTableAdd table network mask output).defaultGateway = m.gateway := by
    rw [add_defaultGateway hdef]
    exact h.gateway
  obtain ⟨l₁, l₂, hused, hpre, hend⟩ := add_cases h.count_le hdef output
  have hord := h.ordered
  have hdist := h.distinct
  have hprop := h.proper
  rw [hused] at hord hdist hprop
  rcases hend with ⟨e, rest, rfl, hsame, hadd, -⟩ | ⟨hsmall, hfull, heq⟩ | ⟨hsmall, hroom, hadd, -⟩
  · -- the key is present: only its output changes
    have hekey : e.key = (network, mask) := by rw [RtRoutingEntry.key, hsame.1, hsame.2]
    have hpresent : ¬ (m.routes (network, mask) = none ∧
        m.keys.ncard = maxRoutingEntries) := by
      rintro ⟨hn, -⟩
      exact (h.routes_none _).mp hn e (by rw [hused]; simp) hekey
    rw [RouteMap.add, if_neg hdef, if_neg hpresent]
    refine ⟨hsorted.count_le, hsorted.ordered, hsorted.distinct, ?_, hgate, ?_⟩
    · rw [hadd]
      intro x hx
      rcases List.mem_append.mp hx with hx | hx
      · exact hprop x (List.mem_append_left _ hx)
      · rcases List.mem_cons.mp hx with rfl | hx
        · exact proper
        · exact hprop x (List.mem_append_right _ (List.mem_cons_of_mem _ hx))
    · have hother : ∀ x ∈ l₁ ++ rest, x.key ≠ (network, mask) := by
        intro x hx hk
        simp only [List.map_append, List.map_cons, hekey] at hdist
        have hnot : (network, mask) ∉ l₁.map RtRoutingEntry.key ++ rest.map RtRoutingEntry.key :=
          (List.nodup_middle.mp hdist).notMem
        rw [← List.map_append] at hnot
        exact hnot (hk ▸ List.mem_map_of_mem hx)
      rw [hadd]
      refine routes_written hother fun k o hk => ?_
      have hne : e.key ≠ k := by
        rw [hekey]
        exact fun hk' => hk hk'.symm
      rw [h.routes, hused]
      simp [or_and_right, exists_or, hne]
  · -- the table is full and the key is new
    have habsent : m.routes (network, mask) = none := by
      rw [h.routes_none, hused]
      exact new_key hord hpre hsmall
    rw [heq, RouteMap.add, if_neg hdef, if_pos ⟨habsent, by rw [h.keys_ncard, hfull]⟩]
    exact h
  · -- the key is new and there is room
    have hroom' : ¬ (m.routes (network, mask) = none ∧
        m.keys.ncard = maxRoutingEntries) := by
      rw [h.keys_ncard]
      omega
    rw [RouteMap.add, if_neg hdef, if_neg hroom']
    refine ⟨hsorted.count_le, hsorted.ordered, hsorted.distinct, ?_, hgate, ?_⟩
    · rw [hadd]
      intro x hx
      rcases List.mem_append.mp hx with hx | hx
      · exact hprop x (List.mem_append_left _ hx)
      · rcases List.mem_cons.mp hx with rfl | hx
        · exact proper
        · exact hprop x (List.mem_append_right _ hx)
    · rw [hadd]
      exact routes_written (new_key hord hpre hsmall) fun k o _ => by rw [h.routes, hused]

/-- `routing_table_remove_by_output` against the map. -/
theorem remove (h : table.Refines m) (output : UInt8) :
    (routingTableRemoveByOutput table output).Refines (m.removeByOutput output) := by
  have hused := remove_used h.count_le output
  have hsorted := h.sorted.remove output
  refine ⟨hsorted.count_le, hsorted.ordered, hsorted.distinct, ?_, h.gateway, ?_⟩
  · rw [hused]
    intro e he
    exact h.proper e (List.mem_of_mem_filter he)
  · intro k o
    rw [hused]
    simp only [RouteMap.removeByOutput]
    split
    next hrm =>
      -- the key's only entry has the removed output
      simp only [reduceCtorEq, false_iff]
      rintro ⟨e, he, hk, ho⟩
      have hkeep := List.mem_filter.mp he
      have hout : m.routes k = some e.output := (h.routes _ _).mpr ⟨e, hkeep.1, hk, rfl⟩
      rw [hrm] at hout
      simp [Option.some.inj hout] at hkeep
    next hrm =>
      rw [h.routes]
      constructor
      · rintro ⟨e, he, hk, ho⟩
        refine ⟨e, List.mem_filter.mpr ⟨he, ?_⟩, hk, ho⟩
        simp only [ne_eq, decide_not, Bool.not_eq_eq_eq_not, Bool.not_true, decide_eq_false_iff_not]
        intro hout
        exact hrm ((h.routes _ _).mpr ⟨e, he, hk, hout⟩)
      · rintro ⟨e, he, hk, ho⟩
        exact ⟨e, List.mem_of_mem_filter he, hk, ho⟩

end RtRoutingTable.Refines

/-! ## Sequences of calls -/

/-- A call that changes the table. -/
inductive TableOp where
  | add (network mask : BitVec 32) (output : UInt8)
  | removeByOutput (output : UInt8)
  deriving DecidableEq

namespace TableOp

/-- The caller adds contiguous prefixes without host bits only. -/
def Valid : TableOp → Prop
  | .add network mask _ => ProperNetwork network mask
  | .removeByOutput _ => True

def onTable (table : RtRoutingTable) : TableOp → RtRoutingTable
  | .add network mask output => routingTableAdd table network mask output
  | .removeByOutput output => routingTableRemoveByOutput table output

noncomputable def onMap (m : RouteMap) : TableOp → RouteMap
  | .add network mask output => m.add network mask output
  | .removeByOutput output => m.removeByOutput output

end TableOp

theorem RtRoutingTable.Sorted.run {table : RtRoutingTable} (h : table.Sorted)
    (ops : List TableOp) : (ops.foldl TableOp.onTable table).Sorted := by
  induction ops generalizing table with
  | nil => exact h
  | cons op ops ih =>
      cases op with
      | add network mask output => exact ih (h.add network mask output)
      | removeByOutput output => exact ih (h.remove output)

theorem RtRoutingTable.Refines.step {table : RtRoutingTable} {m : RouteMap}
    (h : table.Refines m) {op : TableOp} (valid : op.Valid) :
    (op.onTable table).Refines (op.onMap m) := by
  cases op with
  | add network mask output => exact h.add valid output
  | removeByOutput output => exact h.remove output

theorem RtRoutingTable.Refines.run {table : RtRoutingTable} {m : RouteMap}
    (h : table.Refines m) {ops : List TableOp} (valid : ∀ op ∈ ops, op.Valid) :
    (ops.foldl TableOp.onTable table).Refines (ops.foldl TableOp.onMap m) := by
  induction ops generalizing table m with
  | nil => exact h
  | cons op ops ih =>
      exact ih (h.step (valid op (by simp))) (fun o ho => valid o (by simp [ho]))

/-- Over every sequence of calls from `routing_table_init`, the array stays within its
slots, with distinct keys and non-increasing masks, and routes every address as
longest-prefix lookup does in the map built by the same calls. -/
theorem routingTable_longestPrefix (gateway : UInt8) (ops : List TableOp)
    (valid : ∀ op ∈ ops, op.Valid) :
    let table := ops.foldl TableOp.onTable (routingTableInit gateway)
    let routes := ops.foldl TableOp.onMap (RouteMap.init gateway)
    table.count ≤ maxRoutingEntries ∧
      (table.used.map RtRoutingEntry.key).Nodup ∧
      table.used.Pairwise (fun a b => b.mask ≤ a.mask) ∧
      ∀ ip, routingTableRoute table ip = routes.lookup ip := by
  have h := (RtRoutingTable.Refines.init gateway).run valid
  exact ⟨h.count_le, h.distinct, h.ordered, h.route_eq_lookup⟩

/-- Two nested networks added shorter first, and the longer one removed: an address of both then
goes to the shorter one. -/
theorem routingTable_longestPrefix_nested :
    let ops := [TableOp.add 0x0A000000 0xFF000000 1, .add 0x0A200000 0xFFE00000 2,
      .removeByOutput 2]
    routingTableRoute (ops.foldl TableOp.onTable (routingTableInit 5)) 0x0A200001 = 1 ∧
      ∀ ip, routingTableRoute (ops.foldl TableOp.onTable (routingTableInit 5)) ip =
        (ops.foldl TableOp.onMap (RouteMap.init 5)).lookup ip := by
  refine ⟨by decide, (routingTable_longestPrefix 5 _ ?_).2.2.2⟩
  intro op hop
  simp only [List.mem_cons, List.not_mem_nil, or_false] at hop
  rcases hop with rfl | rfl | rfl
  · exact ⟨8, by decide, by decide, by decide⟩
  · exact ⟨11, by decide, by decide, by decide⟩
  · trivial

end I4A
