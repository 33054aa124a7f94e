import I4A.Config

/-! # The routing table

`routing_table.h` and `routing_table.c`. The entry array keeps its sixteen
slots and its separate `count`; `memmove` and the compaction through a shadow
copy are written on the slots. The later sections reduce every operation to the
list of used entries, which is what the rest of the development reads.
-/

namespace I4A

/-- `MAX_ROUTING_ENTRIES`. -/
def maxRoutingEntries : Nat := 16

/-- `rt_routing_entry_t`. -/
structure RtRoutingEntry where
  network : BitVec 32
  mask : BitVec 32
  output : UInt8
  deriving DecidableEq, Repr

/-- `rt_routing_table_t`. -/
structure RtRoutingTable where
  defaultGateway : UInt8
  count : Nat
  entries : Vector RtRoutingEntry maxRoutingEntries
  deriving DecidableEq, Repr

namespace RtRoutingTable

/-- The entries a loop `for (i = 0; i < table->count; i++)` visits. -/
def used (table : RtRoutingTable) : List RtRoutingEntry :=
  table.entries.toList.take table.count

end RtRoutingTable

/-- `routing_table_init`: `memset` to zero, then the gateway. -/
def routingTableInit (defaultGateway : UInt8) : RtRoutingTable where
  defaultGateway := defaultGateway
  count := 0
  entries := Vector.replicate maxRoutingEntries ⟨0, 0, 0⟩

/-- How the scan loop of `routing_table_add` ends: on an entry with the same key, or with
the value of `position`. -/
inductive AddSlot where
  | same (i : Nat)
  | position (i : Nat)
  deriving DecidableEq, Repr

/-- The scan loop of `routing_table_add`, `i` being the index of the list's head. -/
def scanSlot (network mask : BitVec 32) : List RtRoutingEntry → Nat → AddSlot
  | [], i => .position i
  | entry :: rest, i =>
      if entry.network = network ∧ entry.mask = mask then .same i
      else if entry.mask < mask then .position i
      else scanSlot network mask rest (i + 1)

/-- `memmove(&entries[position + 1], &entries[position], n * sizeof(entry))`. -/
def moveRight (entries : Vector RtRoutingEntry maxRoutingEntries) (position n : Nat) :
    Vector RtRoutingEntry maxRoutingEntries :=
  Vector.ofFn fun j =>
    if position < j.val ∧ j.val ≤ position + n then entries.get ⟨j.val - 1, by omega⟩
    else entries[j]

/-- `routing_table_add`. A full table is left as it is; `os_panic` only logs. -/
def routingTableAdd (table : RtRoutingTable) (network mask : BitVec 32) (output : UInt8) :
    RtRoutingTable :=
  if network = 0 ∧ mask = 0 then { table with defaultGateway := output }
  else
    match scanSlot network mask table.used 0 with
    | .same i =>
        { table with entries := table.entries.setIfInBounds i ⟨network, mask, output⟩ }
    | .position i =>
        if maxRoutingEntries ≤ table.count ∨ maxRoutingEntries ≤ i then table
        else
          let moved := moveRight table.entries i (table.count - i)
          { table with
            entries := moved.setIfInBounds i ⟨network, mask, output⟩
            count := table.count + 1 }

/-- The loop of `routing_table_remove_by_output`: the shadow's used entries, `new_count`
and the entries written so far. -/
def compact (output : UInt8) :
    List RtRoutingEntry → Nat → Vector RtRoutingEntry maxRoutingEntries →
      Vector RtRoutingEntry maxRoutingEntries × Nat
  | [], newCount, entries => (entries, newCount)
  | entry :: rest, newCount, entries =>
      if entry.output = output then compact output rest newCount entries
      else compact output rest (newCount + 1) (entries.setIfInBounds newCount entry)

/-- `routing_table_remove_by_output`. -/
def routingTableRemoveByOutput (table : RtRoutingTable) (output : UInt8) : RtRoutingTable :=
  let shadow := table
  let result := compact output shadow.used 0 table.entries
  { table with entries := result.1, count := result.2 }

/-- The test of `routing_table_route` on one entry. -/
def RtRoutingEntry.covers (entry : RtRoutingEntry) (ip : BitVec 32) : Bool :=
  ip &&& entry.mask = entry.network

/-- `routing_table_route`: the output of the first entry that covers the address. -/
def routingTableRoute (table : RtRoutingTable) (ip : BitVec 32) : UInt8 :=
  match table.used.find? (·.covers ip) with
  | some entry => entry.output
  | none => table.defaultGateway

/-! ## The used entries -/

namespace RtRoutingTable

/-- The key two entries may not share. -/
def SameKey (network mask : BitVec 32) (entry : RtRoutingEntry) : Prop :=
  entry.network = network ∧ entry.mask = mask

theorem used_length {table : RtRoutingTable} (hc : table.count ≤ maxRoutingEntries) :
    table.used.length = table.count := by
  simp only [used, List.length_take, Vector.length_toList]
  omega

theorem used_getElem? (table : RtRoutingTable) (j : Nat) :
    table.used[j]? = if j < table.count then table.entries[j]? else none := by
  simp [used, List.getElem?_take, Vector.getElem?_toList]

end RtRoutingTable

open RtRoutingTable

@[simp] theorem used_init (gateway : UInt8) : (routingTableInit gateway).used = [] := rfl

@[simp] theorem defaultGateway_init (gateway : UInt8) :
    (routingTableInit gateway).defaultGateway = gateway := rfl

/-- What the scan loop finds: a prefix of other keys with masks at least as large, and then
an entry with the key, or an entry with a smaller mask, or the end. -/
theorem scanSlot_spec (network mask : BitVec 32) (l : List RtRoutingEntry) (i : Nat) :
    ∃ l₁ l₂, l = l₁ ++ l₂ ∧ (∀ e ∈ l₁, ¬ SameKey network mask e ∧ mask ≤ e.mask) ∧
      ((∃ e rest, l₂ = e :: rest ∧ SameKey network mask e ∧
          scanSlot network mask l i = .same (i + l₁.length)) ∨
        ((∀ e rest, l₂ = e :: rest → e.mask < mask) ∧
          scanSlot network mask l i = .position (i + l₁.length))) := by
  induction l generalizing i with
  | nil => exact ⟨[], [], rfl, by simp, Or.inr ⟨by simp, rfl⟩⟩
  | cons entry rest ih =>
      by_cases hsame : entry.network = network ∧ entry.mask = mask
      · exact ⟨[], entry :: rest, rfl, by simp,
          Or.inl ⟨entry, rest, rfl, hsame, by simp [scanSlot, hsame]⟩⟩
      · by_cases hlt : entry.mask < mask
        · refine ⟨[], entry :: rest, rfl, by simp, Or.inr ⟨?_, by simp [scanSlot, hsame, hlt]⟩⟩
          rintro e r ⟨rfl, rfl⟩
          exact hlt
        · obtain ⟨l₁, l₂, hl, hpre, hend⟩ := ih (i + 1)
          have hscan :
              scanSlot network mask (entry :: rest) i = scanSlot network mask rest (i + 1) := by
            simp [scanSlot, hsame, hlt]
          have hidx : i + 1 + l₁.length = i + (entry :: l₁).length := by
            simp only [List.length_cons]
            omega
          refine ⟨entry :: l₁, l₂, by rw [hl, List.cons_append], ?_, ?_⟩
          · intro e he
            rcases List.mem_cons.mp he with rfl | he
            · exact ⟨hsame, BitVec.not_lt.mp hlt⟩
            · exact hpre e he
          · rw [hscan, ← hidx]
            exact hend

theorem used_set (table : RtRoutingTable) (i : Nat) (e : RtRoutingEntry) :
    RtRoutingTable.used { table with entries := table.entries.setIfInBounds i e } =
      table.used.set i e := by
  simp [used, List.take_set]

/-- Opening a slot in the middle of the used entries and filling it. -/
theorem used_insert {table : RtRoutingTable} (i : Nat) (e : RtRoutingEntry)
    (hc : table.count < maxRoutingEntries) (hi : i ≤ table.count) :
    RtRoutingTable.used
        { table with
          entries := (moveRight table.entries i (table.count - i)).setIfInBounds i e
          count := table.count + 1 } =
      table.used.take i ++ e :: table.used.drop i := by
  have hlen : (table.used.take i).length = i := by
    rw [List.length_take, used_length (by omega)]
    omega
  apply List.ext_getElem?
  intro j
  rw [used_getElem?]
  dsimp only
  rcases Nat.lt_trichotomy j i with hlt | heq | hgt
  · -- in front of the new slot nothing moves
    rw [if_pos (by omega), List.getElem?_append_left (by omega), List.getElem?_take,
      if_pos hlt, used_getElem?, if_pos (by omega), Vector.getElem?_setIfInBounds,
      if_neg (by omega), Vector.getElem?_eq_getElem (by omega),
      Vector.getElem?_eq_getElem (by omega)]
    simp [moveRight, Nat.not_lt_of_lt hlt]
  · subst heq
    rw [if_pos (by omega), List.getElem?_append_right (by omega), hlen,
      Vector.getElem?_setIfInBounds]
    have hj : j < maxRoutingEntries := by omega
    simp [hj]
  · -- behind it every entry comes from one slot to the left
    rw [List.getElem?_append_right (by omega), hlen, List.getElem?_cons,
      if_neg (show ¬ j - i = 0 by omega), List.getElem?_drop, used_getElem?]
    have hidx : i + (j - i - 1) = j - 1 := by omega
    rw [hidx]
    by_cases hj : j < table.count + 1
    · rw [if_pos hj, if_pos (by omega), Vector.getElem?_setIfInBounds, if_neg (by omega),
        Vector.getElem?_eq_getElem (by omega), Vector.getElem?_eq_getElem (by omega)]
      have hrange : i < j ∧ j ≤ i + (table.count - i) := ⟨hgt, by omega⟩
      simp only [moveRight, Vector.getElem_ofFn, hrange, and_self, if_true]
      rfl
    · rw [if_neg hj, if_neg (by omega)]

/-- The compaction loop appends the kept entries to the first `newCount` slots. -/
theorem compact_spec (output : UInt8) (l : List RtRoutingEntry) (n : Nat)
    (entries : Vector RtRoutingEntry maxRoutingEntries) (hn : n + l.length ≤ maxRoutingEntries) :
    (compact output l n entries).1.toList.take (compact output l n entries).2 =
        entries.toList.take n ++ l.filter (·.output ≠ output) ∧
      (compact output l n entries).2 ≤ n + l.length := by
  induction l generalizing n entries with
  | nil => simp [compact]
  | cons entry rest ih =>
      simp only [List.length_cons] at hn
      by_cases ho : entry.output = output
      · obtain ⟨h1, h2⟩ := ih n entries (by omega)
        simp only [compact, if_pos ho]
        refine ⟨by rw [h1]; simp [ho], ?_⟩
        simp only [List.length_cons]
        omega
      · obtain ⟨h1, h2⟩ := ih (n + 1) (entries.setIfInBounds n entry) (by omega)
        simp only [compact, if_neg ho]
        refine ⟨?_, by simp only [List.length_cons]; omega⟩
        have hset : (entries.setIfInBounds n entry).toList.take (n + 1) =
            entries.toList.take n ++ [entry] := by
          rw [Vector.toList_setIfInBounds, List.take_add_one]
          simp [List.take_set_of_le, show n < maxRoutingEntries by omega]
        rw [h1, hset]
        simp [ho]

/-! ## The operations on the used entries -/

theorem add_default (table : RtRoutingTable) (output : UInt8) :
    routingTableAdd table 0 0 output = { table with defaultGateway := output } := by
  simp [routingTableAdd]

theorem add_defaultGateway {network mask : BitVec 32} (h : ¬ (network = 0 ∧ mask = 0))
    (table : RtRoutingTable) (output : UInt8) :
    (routingTableAdd table network mask output).defaultGateway = table.defaultGateway := by
  rw [routingTableAdd, if_neg h]
  split
  · rfl
  · split <;> rfl

/-- Everything `routing_table_add` of a proper network can do to the used entries: write the
output of the entry with the key, change nothing because the table is full, or open a slot
behind all entries with masks at least as large. -/
theorem add_cases {table : RtRoutingTable} (hc : table.count ≤ maxRoutingEntries)
    {network mask : BitVec 32} (h : ¬ (network = 0 ∧ mask = 0)) (output : UInt8) :
    ∃ l₁ l₂, table.used = l₁ ++ l₂ ∧
      (∀ e ∈ l₁, ¬ SameKey network mask e ∧ mask ≤ e.mask) ∧
      ((∃ e rest, l₂ = e :: rest ∧ SameKey network mask e ∧
          (routingTableAdd table network mask output).used =
            l₁ ++ ⟨network, mask, output⟩ :: rest ∧
          (routingTableAdd table network mask output).count = table.count) ∨
        ((∀ e rest, l₂ = e :: rest → e.mask < mask) ∧ table.count = maxRoutingEntries ∧
          routingTableAdd table network mask output = table) ∨
        ((∀ e rest, l₂ = e :: rest → e.mask < mask) ∧ table.count < maxRoutingEntries ∧
          (routingTableAdd table network mask output).used =
            l₁ ++ ⟨network, mask, output⟩ :: l₂ ∧
          (routingTableAdd table network mask output).count = table.count + 1)) := by
  obtain ⟨l₁, l₂, hl, hpre, hend⟩ := scanSlot_spec network mask table.used 0
  have hlen : l₁.length ≤ table.count := by
    have hu := used_length hc
    rw [hl, List.length_append] at hu
    omega
  refine ⟨l₁, l₂, hl, hpre, ?_⟩
  rcases hend with ⟨e, rest, rfl, hsame, hscan⟩ | ⟨hsmall, hscan⟩
  · left
    rw [Nat.zero_add] at hscan
    refine ⟨e, rest, rfl, hsame, ?_, ?_⟩
    · rw [routingTableAdd, if_neg h, hscan]
      dsimp only
      rw [used_set, hl]
      simp
    · rw [routingTableAdd, if_neg h, hscan]
  · right
    rw [Nat.zero_add] at hscan
    by_cases hfull : table.count = maxRoutingEntries
    · left
      refine ⟨hsmall, hfull, ?_⟩
      rw [routingTableAdd, if_neg h, hscan]
      simp [hfull]
    · right
      have hlt : table.count < maxRoutingEntries := by omega
      refine ⟨hsmall, hlt, ?_, ?_⟩
      · rw [routingTableAdd, if_neg h, hscan]
        dsimp only
        rw [if_neg (by omega), used_insert l₁.length _ hlt hlen, hl]
        simp
      · rw [routingTableAdd, if_neg h, hscan]
        dsimp only
        rw [if_neg (by omega)]

theorem remove_used {table : RtRoutingTable} (hc : table.count ≤ maxRoutingEntries)
    (output : UInt8) :
    (routingTableRemoveByOutput table output).used =
      table.used.filter (·.output ≠ output) := by
  have hlen : 0 + table.used.length ≤ maxRoutingEntries := by
    rw [used_length hc]
    omega
  simpa [routingTableRemoveByOutput, RtRoutingTable.used] using
    (compact_spec output table.used 0 table.entries hlen).1

@[simp] theorem remove_defaultGateway (table : RtRoutingTable) (output : UInt8) :
    (routingTableRemoveByOutput table output).defaultGateway = table.defaultGateway := rfl

theorem add_count_le {table : RtRoutingTable} (hc : table.count ≤ maxRoutingEntries)
    (network mask : BitVec 32) (output : UInt8) :
    (routingTableAdd table network mask output).count ≤ maxRoutingEntries := by
  by_cases h : network = 0 ∧ mask = 0
  · rw [routingTableAdd, if_pos h]
    exact hc
  · obtain ⟨l₁, l₂, -, -, hend⟩ := add_cases hc h output
    rcases hend with ⟨e, rest, -, -, -, hcount⟩ | ⟨-, -, heq⟩ | ⟨-, hlt, -, hcount⟩
    · omega
    · rw [heq]
      exact hc
    · omega

theorem remove_count_le {table : RtRoutingTable} (hc : table.count ≤ maxRoutingEntries)
    (output : UInt8) :
    (routingTableRemoveByOutput table output).count ≤ maxRoutingEntries := by
  have hlen : 0 + table.used.length ≤ maxRoutingEntries := by
    rw [used_length hc]
    omega
  have h := (compact_spec output table.used 0 table.entries hlen).2
  simp only [routingTableRemoveByOutput]
  omega

end I4A
