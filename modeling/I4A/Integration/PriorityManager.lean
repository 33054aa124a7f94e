import I4A.Core.Checked
import I4A.Core.Machine
import Mathlib

/-! # Connection slots

`priority_manager.c` and the start of `device_connect_station_task` in `device.c`: a forwarder
clears its list, provides its own RSSI and waits in the slot that the list gives it. The
broadcasts of the other forwarders come in whenever the ring delivers them.
-/

namespace I4A

/-- The forwarders of a node, N, S, E and W: `MAX_DEVICES`. -/
abbrev maxDevices : Nat := 4

instance neZero_maxDevices : NeZero maxDevices := ⟨by decide⟩

/-- `devices_rssi`. -/
abbrev DevicesRssi := Vector Int8 maxDevices

/-! ## priority_manager.c -/

namespace PriorityManager

open Checked

/-- `pm_message_t`. -/
def message (orientation : Fin maxDevices) (rssi : Int8) : List UInt8 :=
  [UInt8.ofNat orientation.val, rssi.toUInt8]

/-- `on_sibling_message`; a message of another length is ignored. -/
def onSiblingMessage (devicesRssi : DevicesRssi) : List UInt8 → Checked DevicesRssi
  | [orientation, rssi] =>
      store devicesRssi (clamp maxDevices orientation.toNat) rssi.toInt8
  | _ => .ok devicesRssi

/-- `pm_provide_to_siblings`: the list with the own value, and the broadcast. -/
def pmProvideToSiblings (orientation : Fin maxDevices) (devicesRssi : DevicesRssi)
    (rssi : Int8) : DevicesRssi × List UInt8 :=
  (devicesRssi.set orientation rssi, message orientation rssi)

/-- `pm_get_suggested_priority`. -/
def pmGetSuggestedPriority (devicesRssi : DevicesRssi) : Fin maxDevices :=
  [1, 2, 3].foldl
    (fun suggested i =>
      if devicesRssi.get suggested < devicesRssi.get i then i else suggested) 0

/-- `pm_reset_priority_list`. -/
def pmResetPriorityList : DevicesRssi := Vector.replicate maxDevices (-127)

end PriorityManager

open PriorityManager

/-- `shifted_priorities`, computed in `int`. -/
def shiftedPriorities (orientation priority : Fin maxDevices) : Nat :=
  ((orientation.val - priority.val + 4 : Int) % 4).toNat

/-- The board with the highest value, the lowest of several. -/
def Leads (rssi : Fin maxDevices → Int8) (first : Fin maxDevices) : Prop :=
  (∀ i, rssi i ≤ rssi first) ∧ ∀ i < first, rssi i < rssi first

/-! ## The four forwarders -/

/-- How far `device_connect_station_task` has come. -/
inductive ConnectPhase where
  | created
  | reset
  | provided
  | waiting (shiftedPriorities : Nat)
  deriving DecidableEq

/-- The task has broadcast its RSSI. -/
def ConnectPhase.sent : ConnectPhase → Bool
  | .created => false
  | .reset => false
  | .provided => true
  | .waiting _ => true

structure PriorityBoard where
  devicesRssi : DevicesRssi
  phase : ConnectPhase

/-- The forwarders with the broadcasts delivered so far; `delivered src dst` tells that the
value of `src` was stored by `dst`, also for `src = dst`. -/
structure PriorityNode where
  boards : Fin maxDevices → PriorityBoard
  delivered : Fin maxDevices → Fin maxDevices → Bool

/-- The steps of the tasks, and the deliveries. -/
inductive PriorityLabel where
  | reset (board : Fin maxDevices)
  | provide (board : Fin maxDevices)
  | deliver (src dst : Fin maxDevices)
  | compute (board : Fin maxDevices)
  deriving DecidableEq

namespace PriorityNode

/-- The tasks are created with whatever their boards last had in the list. -/
def start (lists : Fin maxDevices → DevicesRssi) : PriorityNode where
  boards board := ⟨lists board, .created⟩
  delivered _ _ := false

variable (s : PriorityNode)

def sent (src : Fin maxDevices) : Bool := (s.boards src).phase.sent

def setBoard (i : Fin maxDevices) (board : PriorityBoard) : PriorityNode :=
  { s with boards := Function.update s.boards i board }

def setDelivered (src dst : Fin maxDevices) : PriorityNode :=
  { s with
    delivered := fun src' dst' => (src' = src ∧ dst' = dst) ∨ s.delivered src' dst' }

/-- One step, when the forwarders have scanned `rssi`. A slot is computed only after all four
broadcasts have been delivered to the board. -/
def step (rssi : Fin maxDevices → Int8) : PriorityLabel → Option PriorityNode
  | .reset i =>
      if (s.boards i).phase = .created then some (s.setBoard i ⟨pmResetPriorityList, .reset⟩)
      else none
  | .provide i =>
      if (s.boards i).phase = .reset then
        some ((s.setBoard i
          ⟨(pmProvideToSiblings i (s.boards i).devicesRssi (rssi i)).1, .provided⟩).setDelivered
            i i)
      else none
  | .deliver src dst =>
      if s.sent src ∧ src ≠ dst ∧ s.delivered src dst = false then
        match onSiblingMessage (s.boards dst).devicesRssi (message src (rssi src)) with
        | .ok devicesRssi =>
            some ((s.setBoard dst { s.boards dst with devicesRssi }).setDelivered src dst)
        | .error _ => none
      else none
  | .compute i =>
      if (s.boards i).phase = .provided ∧ ∀ src, s.delivered src i then
        some (s.setBoard i { s.boards i with
          phase := .waiting
            (shiftedPriorities i (pmGetSuggestedPriority (s.boards i).devicesRssi)) })
      else none

/-- Every forwarder waits, each in a slot of its own, and slot 0 belongs to the forwarder with
the highest RSSI, the lowest orientation of several. -/
def SlotsAgree (rssi : Fin maxDevices → Int8) : Prop :=
  ∃ slots : Fin maxDevices → Nat, (∀ i, (s.boards i).phase = .waiting (slots i)) ∧
    Function.Injective slots ∧
    ∃ first, slots first = 0 ∧ Leads rssi first

/-- Every forwarder has computed its slot. -/
def Computed : Prop := ∀ i, ∃ slot, (s.boards i).phase = .waiting slot

end PriorityNode

def priorityMachine (rssi : Fin maxDevices → Int8) : Machine PriorityNode PriorityLabel :=
  ⟨fun s l => s.step rssi l⟩

/-- No forwarder clears its list after a broadcast was delivered to it. -/
def ResetsFirst (schedule : List PriorityLabel) : Prop :=
  ∀ first i rest, schedule = first ++ .reset i :: rest → ∀ src, .deliver src i ∉ first

/-! ## The list and the slot -/

namespace PriorityManager

theorem onSiblingMessage_message (devicesRssi : DevicesRssi) (src : Fin maxDevices)
    (rssi : Int8) :
    onSiblingMessage devicesRssi (message src rssi) = .ok (devicesRssi.set src rssi) := by
  have hval : (UInt8.ofNat src.val).toNat = src.val := by
    rw [UInt8.toNat_ofNat']
    exact Nat.mod_eq_of_lt (Nat.lt_trans src.isLt (by decide))
  have hclamp : Checked.clamp maxDevices (UInt8.ofNat src.val).toNat = src.val := by
    rw [hval, Checked.clamp_of_lt src.isLt]
  unfold onSiblingMessage message
  dsimp only
  rw [hclamp, Checked.store_of_lt devicesRssi src.isLt]
  rfl

/-- The invariant of the scan: `suggested` leads the boards up to `k`. -/
private def LeadsUpTo (rssi : Fin maxDevices → Int8) (k : Nat) (suggested : Fin maxDevices) :
    Prop :=
  suggested.val ≤ k ∧ (∀ i, i.val ≤ k → rssi i ≤ rssi suggested) ∧
    ∀ i < suggested, rssi i < rssi suggested

private theorem LeadsUpTo.next {rssi : Fin maxDevices → Int8} {k : Nat}
    {suggested : Fin maxDevices} (h : LeadsUpTo rssi k suggested) {i : Fin maxDevices}
    (hi : i.val = k + 1) :
    LeadsUpTo rssi (k + 1) (if rssi suggested < rssi i then i else suggested) := by
  obtain ⟨hle, hmax, hfirst⟩ := h
  split
  · rename_i hlt
    refine ⟨by omega, fun j hj => ?_, fun j hj => ?_⟩
    · rcases Nat.lt_or_eq_of_le hj with hj | hj
      · exact Int8.le_of_lt (Int8.lt_of_le_of_lt (hmax j (by omega)) hlt)
      · have hji : j = i := Fin.ext (by omega)
        rw [hji]
        exact Int8.le_refl _
    · have hj' : j.val < i.val := hj
      exact Int8.lt_of_le_of_lt (hmax j (by omega)) hlt
  · rename_i hnot
    refine ⟨by omega, fun j hj => ?_, hfirst⟩
    rcases Nat.lt_or_eq_of_le hj with hj | hj
    · exact hmax j (by omega)
    · have hji : j = i := Fin.ext (by omega)
      rw [hji]
      exact Int8.not_lt.mp hnot

theorem leads_pmGetSuggestedPriority (devicesRssi : DevicesRssi) :
    Leads devicesRssi.get (pmGetSuggestedPriority devicesRssi) := by
  have first : LeadsUpTo devicesRssi.get 0 0 := by
    refine ⟨Nat.le_refl 0, fun i hi => ?_, fun i hi => absurd hi (Nat.not_lt_zero _)⟩
    have h0 : i = 0 := Fin.ext (Nat.le_zero.mp hi)
    rw [h0]
    exact Int8.le_refl _
  have scan : LeadsUpTo devicesRssi.get 3 (pmGetSuggestedPriority devicesRssi) :=
    ((first.next (i := 1) rfl).next (i := 2) rfl).next (i := 3) rfl
  exact ⟨fun i => scan.2.1 i (Nat.le_of_lt_succ i.isLt), scan.2.2⟩

end PriorityManager

theorem Leads.unique {rssi : Fin maxDevices → Int8} {first second : Fin maxDevices}
    (h : Leads rssi first) (h' : Leads rssi second) : first = second := by
  rcases Nat.lt_trichotomy first.val second.val with hlt | heq | hgt
  · exact absurd (h'.2 first hlt) (Int8.not_lt.mpr (h.1 second))
  · exact Fin.ext heq
  · exact absurd (h.2 second hgt) (Int8.not_lt.mpr (h'.1 first))

theorem shiftedPriorities_injective (priority : Fin maxDevices) :
    Function.Injective (shiftedPriorities · priority) := by
  have all : ∀ p i j : Fin maxDevices, shiftedPriorities i p = shiftedPriorities j p → i = j := by
    decide
  exact fun i j => all priority i j

theorem shiftedPriorities_eq_zero {orientation priority : Fin maxDevices} :
    shiftedPriorities orientation priority = 0 ↔ orientation = priority := by
  revert orientation priority
  decide

theorem leads_of_dominates {rssi : Fin maxDevices → Int8} {first : Fin maxDevices}
    (h : ∀ i, i ≠ first → rssi i < rssi first) : Leads rssi first := by
  constructor
  · intro i
    by_cases hi : i = first
    · rw [hi]
      exact Int8.le_refl _
    · exact Int8.le_of_lt (h i hi)
  · intro i hi
    exact h i (Fin.ne_of_lt hi)

/-! ## Steps -/

namespace PriorityNode

variable {s t : PriorityNode} {rssi : Fin maxDevices → Int8} {l : PriorityLabel}

@[simp] theorem setBoard_boards (s : PriorityNode) (i j : Fin maxDevices)
    (board : PriorityBoard) :
    (s.setBoard i board).boards j = if j = i then board else s.boards j :=
  Function.update_apply s.boards i board j

@[simp] theorem setBoard_delivered (s : PriorityNode) (i : Fin maxDevices)
    (board : PriorityBoard) : (s.setBoard i board).delivered = s.delivered := rfl

@[simp] theorem setDelivered_boards (s : PriorityNode) (src dst : Fin maxDevices) :
    (s.setDelivered src dst).boards = s.boards := rfl

@[simp] theorem setDelivered_delivered (s : PriorityNode) (src dst src' dst' : Fin maxDevices) :
    (s.setDelivered src dst).delivered src' dst' = true ↔
      (src' = src ∧ dst' = dst) ∨ s.delivered src' dst' = true := by
  simp [setDelivered]

/-- What the steps do. -/
theorem step_cases (h : s.step rssi l = some t) :
    (∃ i, l = .reset i ∧ (s.boards i).phase = .created ∧
      t = s.setBoard i ⟨pmResetPriorityList, .reset⟩) ∨
    (∃ i, l = .provide i ∧ (s.boards i).phase = .reset ∧
      t = (s.setBoard i ⟨(s.boards i).devicesRssi.set i (rssi i), .provided⟩).setDelivered i i) ∨
    (∃ src dst, l = .deliver src dst ∧ s.sent src = true ∧ src ≠ dst ∧
      s.delivered src dst = false ∧
      t = (s.setBoard dst ⟨(s.boards dst).devicesRssi.set src (rssi src),
        (s.boards dst).phase⟩).setDelivered src dst) ∨
    (∃ i, l = .compute i ∧ (s.boards i).phase = .provided ∧ (∀ src, s.delivered src i = true) ∧
      t = s.setBoard i ⟨(s.boards i).devicesRssi, .waiting
        (shiftedPriorities i (pmGetSuggestedPriority (s.boards i).devicesRssi))⟩) := by
  cases l with
  | reset i =>
      simp only [step, Option.ite_none_right_eq_some, Option.some.injEq] at h
      exact .inl ⟨i, rfl, h.1, h.2.symm⟩
  | provide i =>
      simp only [step, Option.ite_none_right_eq_some, Option.some.injEq] at h
      exact .inr (.inl ⟨i, rfl, h.1, h.2.symm⟩)
  | deliver src dst =>
      simp only [step, onSiblingMessage_message, Option.ite_none_right_eq_some,
        Option.some.injEq] at h
      exact .inr (.inr (.inl ⟨src, dst, rfl, h.1.1, h.1.2.1, h.1.2.2, h.2.symm⟩))
  | compute i =>
      simp only [step, Option.ite_none_right_eq_some, Option.some.injEq] at h
      exact .inr (.inr (.inr ⟨i, rfl, h.1.1, h.1.2, h.2.symm⟩))

/-- What the lists and the phases of a run say about each other and about the schedule. -/
structure Consistent (rssi : Fin maxDevices → Int8) (schedule : List PriorityLabel)
    (s : PriorityNode) : Prop where
  own : ∀ i, s.delivered i i = true ↔ s.sent i = true
  history : ∀ src dst, .deliver src dst ∈ schedule ↔ src ≠ dst ∧ s.delivered src dst = true
  waiting : ∀ i slot, (s.boards i).phase = .waiting slot →
    slot = shiftedPriorities i (pmGetSuggestedPriority (s.boards i).devicesRssi) ∧
      ∀ src, s.delivered src i = true
  listed : ∀ i, (s.boards i).phase ≠ .created → ∀ k,
    (s.boards i).devicesRssi.get k = -127 ∨ (s.boards i).devicesRssi.get k = rssi k
  provided : ∀ i, s.sent i = true → (s.boards i).devicesRssi.get i = rssi i

theorem get_set (devicesRssi : DevicesRssi) (i k : Fin maxDevices) (x : Int8) :
    (devicesRssi.set i x).get k = if k = i then x else devicesRssi.get k := by
  show (devicesRssi.set i x)[k.val] = if k = i then x else devicesRssi[k.val]
  rw [Vector.getElem_set]
  simp only [Fin.ext_iff, eq_comm]

theorem get_pmResetPriorityList (k : Fin maxDevices) : pmResetPriorityList.get k = -127 := by
  show pmResetPriorityList[k.val] = -127
  simp [pmResetPriorityList]

theorem sent_setBoard (s : PriorityNode) (i j : Fin maxDevices) (board : PriorityBoard) :
    (s.setBoard i board).sent j = if j = i then board.phase.sent else s.sent j := by
  by_cases hj : j = i
  · subst hj
    simp [sent]
  · simp [sent, hj]

theorem consistent_start (lists : Fin maxDevices → DevicesRssi) :
    Consistent rssi [] (start lists) := by
  constructor
  · intro i
    simp [start, sent, ConnectPhase.sent]
  · intro src dst
    simp [start]
  · intro i slot h
    cases h
  · intro i h
    exact absurd rfl h
  · intro i h
    cases h

variable {schedule : List PriorityLabel} {i : Fin maxDevices}

theorem Consistent.reset (inv : Consistent rssi schedule s)
    (hphase : (s.boards i).phase = .created) :
    Consistent rssi (schedule ++ [.reset i]) (s.setBoard i ⟨pmResetPriorityList, .reset⟩) := by
  have hsent : s.sent i = false := by rw [sent, hphase]; rfl
  have hsame : ∀ j, (s.setBoard i ⟨pmResetPriorityList, .reset⟩).sent j = s.sent j := by
    intro j
    rw [sent_setBoard]
    split
    · rename_i hj
      rw [hj, hsent]
      rfl
    · rfl
  constructor
  · intro j
    rw [hsame]
    exact inv.own j
  · intro src dst
    simpa using inv.history src dst
  · intro j slot hslot
    by_cases hj : j = i
    · subst hj
      simp at hslot
    · simp only [setBoard_boards, hj, if_false] at hslot
      simpa [hj] using inv.waiting j slot hslot
  · intro j hcreated k
    by_cases hj : j = i
    · subst hj
      simp [get_pmResetPriorityList]
    · simp only [setBoard_boards, hj, if_false] at hcreated ⊢
      exact inv.listed j hcreated k
  · intro j hj
    rw [hsame] at hj
    have hji : j ≠ i := by
      rintro rfl
      rw [hsent] at hj
      cases hj
    simpa [hji] using inv.provided j hj

theorem Consistent.provide (inv : Consistent rssi schedule s)
    (hphase : (s.boards i).phase = .reset) :
    Consistent rssi (schedule ++ [.provide i])
      ((s.setBoard i ⟨(s.boards i).devicesRssi.set i (rssi i), .provided⟩).setDelivered i i) := by
  constructor
  · intro j
    show _ ↔ (s.setBoard i _).sent j = true
    rw [sent_setBoard]
    by_cases hj : j = i
    · simp [hj, ConnectPhase.sent]
    · simpa [hj] using inv.own j
  · intro src dst
    simp only [List.mem_append, List.mem_singleton, reduceCtorEq, or_false,
      setDelivered_delivered, setBoard_delivered, inv.history src dst]
    constructor
    · rintro ⟨hne, hd⟩
      exact ⟨hne, .inr hd⟩
    · rintro ⟨hne, ⟨rfl, rfl⟩ | hd⟩
      · exact absurd rfl hne
      · exact ⟨hne, hd⟩
  · intro j slot hslot
    by_cases hj : j = i
    · subst hj
      simp at hslot
    · simp only [setDelivered_boards, setBoard_boards, hj, if_false] at hslot
      obtain ⟨hslot', hall⟩ := inv.waiting j slot hslot
      refine ⟨by simpa [hj] using hslot', fun src => ?_⟩
      simp [hall src]
  · intro j hcreated k
    by_cases hj : j = i
    · subst hj
      have hold := inv.listed j (by rw [hphase]; simp) k
      by_cases hk : k = j
      · subst hk
        simp [get_set]
      · simpa [get_set, hk] using hold
    · simp only [setDelivered_boards, setBoard_boards, hj, if_false] at hcreated ⊢
      exact inv.listed j hcreated k
  · intro j hj
    by_cases hji : j = i
    · subst hji
      simp [get_set]
    · have hsent : s.sent j = true := by simpa [sent, hji] using hj
      simpa [hji] using inv.provided j hsent

theorem Consistent.deliver {src dst : Fin maxDevices} (inv : Consistent rssi schedule s)
    (hne : src ≠ dst) (hnot : s.delivered src dst = false) :
    Consistent rssi (schedule ++ [.deliver src dst])
      ((s.setBoard dst ⟨(s.boards dst).devicesRssi.set src (rssi src),
        (s.boards dst).phase⟩).setDelivered src dst) := by
  have hkeep : ∀ j, ((s.setBoard dst ⟨(s.boards dst).devicesRssi.set src (rssi src),
      (s.boards dst).phase⟩).boards j).phase = (s.boards j).phase := by
    intro j
    by_cases hj : j = dst
    · subst hj
      simp
    · simp [hj]
  constructor
  · intro j
    simp only [sent, setDelivered_boards, hkeep, setDelivered_delivered, setBoard_delivered]
    constructor
    · rintro (⟨rfl, rfl⟩ | hd)
      · exact absurd rfl hne
      · exact (inv.own j).mp hd
    · intro hj
      exact .inr ((inv.own j).mpr hj)
  · intro src' dst'
    simp only [List.mem_append, List.mem_singleton, PriorityLabel.deliver.injEq,
      setDelivered_delivered, setBoard_delivered, inv.history src' dst']
    constructor
    · rintro (⟨hne', hd⟩ | ⟨rfl, rfl⟩)
      · exact ⟨hne', .inr hd⟩
      · exact ⟨hne, .inl ⟨rfl, rfl⟩⟩
    · rintro ⟨hne', hnew | hd⟩
      · exact .inr hnew
      · exact .inl ⟨hne', hd⟩
  · intro j slot hslot
    rw [setDelivered_boards, hkeep] at hslot
    obtain ⟨hslot', hall⟩ := inv.waiting j slot hslot
    -- a board that waits has every broadcast already
    have hj : j ≠ dst := by
      rintro rfl
      rw [hall src] at hnot
      cases hnot
    refine ⟨by simpa [hj] using hslot', fun src' => ?_⟩
    simp [hall src']
  · intro j hcreated k
    rw [setDelivered_boards, hkeep] at hcreated
    have hold := inv.listed j hcreated k
    by_cases hj : j = dst
    · subst hj
      by_cases hk : k = src
      · subst hk
        simp [get_set]
      · simpa [get_set, hk] using hold
    · simpa [hj] using hold
  · intro j hj
    simp only [sent, setDelivered_boards, hkeep] at hj
    have hold := inv.provided j hj
    by_cases hjd : j = dst
    · subst hjd
      simpa [get_set, hne.symm] using hold
    · simpa [hjd] using hold

theorem Consistent.compute (inv : Consistent rssi schedule s)
    (hphase : (s.boards i).phase = .provided) (hall : ∀ src, s.delivered src i = true) :
    Consistent rssi (schedule ++ [.compute i])
      (s.setBoard i ⟨(s.boards i).devicesRssi, .waiting
        (shiftedPriorities i (pmGetSuggestedPriority (s.boards i).devicesRssi))⟩) := by
  have hkeep : ∀ j, ((s.setBoard i ⟨(s.boards i).devicesRssi, .waiting
      (shiftedPriorities i (pmGetSuggestedPriority (s.boards i).devicesRssi))⟩).boards
        j).devicesRssi = (s.boards j).devicesRssi := by
    intro j
    by_cases hj : j = i
    · subst hj
      simp
    · simp [hj]
  have hsent : ∀ j, (s.setBoard i ⟨(s.boards i).devicesRssi, .waiting
      (shiftedPriorities i (pmGetSuggestedPriority (s.boards i).devicesRssi))⟩).sent j =
        s.sent j := by
    intro j
    rw [sent_setBoard]
    split
    · rename_i hj
      rw [hj, sent, hphase]
      rfl
    · rfl
  constructor
  · intro j
    rw [hsent]
    exact inv.own j
  · intro src dst
    simpa using inv.history src dst
  · intro j slot hslot
    rw [hkeep]
    by_cases hj : j = i
    · subst hj
      simp only [setBoard_boards, if_true, ConnectPhase.waiting.injEq] at hslot
      exact ⟨hslot.symm, hall⟩
    · simp only [setBoard_boards, hj, if_false] at hslot
      exact inv.waiting j slot hslot
  · intro j hcreated k
    rw [hkeep]
    refine inv.listed j (fun hc => ?_) k
    by_cases hj : j = i
    · subst hj
      rw [hphase] at hc
      cases hc
    · simp only [setBoard_boards, hj, if_false] at hcreated
      exact hcreated hc
  · intro j hj
    rw [hsent] at hj
    rw [hkeep]
    exact inv.provided j hj

theorem Consistent.next (inv : Consistent rssi schedule s) (h : s.step rssi l = some t) :
    Consistent rssi (schedule ++ [l]) t := by
  rcases step_cases h with ⟨i, rfl, hphase, rfl⟩ | ⟨i, rfl, hphase, rfl⟩ |
    ⟨src, dst, rfl, -, hne, hnot, rfl⟩ | ⟨i, rfl, hphase, hall, rfl⟩
  · exact inv.reset hphase
  · exact inv.provide hphase
  · exact inv.deliver hne hnot
  · exact inv.compute hphase hall

theorem consistent_of_run {lists : Fin maxDevices → DevicesRssi}
    (h : (priorityMachine rssi).run (start lists) schedule = some s) :
    Consistent rssi schedule s :=
  Machine.run_induction (P := Consistent rssi) (consistent_start lists)
    (fun _ _ _ _ _ inv hstep => inv.next hstep) h

/-! ## Schedules -/

theorem resetsFirst_of_append {first rest : List PriorityLabel}
    (h : ResetsFirst (first ++ rest)) : ResetsFirst first := by
  intro before i after heq src
  refine h before i (after ++ rest) ?_ src
  rw [heq, List.append_assoc, List.cons_append]

/-- While no forwarder clears its list after a delivery, the lists hold what was delivered. -/
theorem stored_of_resetsFirst {lists : Fin maxDevices → DevicesRssi}
    (h : (priorityMachine rssi).run (start lists) schedule = some s)
    (resets : ResetsFirst schedule) {src dst : Fin maxDevices}
    (hd : s.delivered src dst = true) : (s.boards dst).devicesRssi.get src = rssi src := by
  refine Machine.run_induction
    (P := fun ls s => ResetsFirst ls → ∀ src dst, s.delivered src dst = true →
      (s.boards dst).devicesRssi.get src = rssi src) ?_ ?_ h resets src dst hd
  · intro _ src dst hd
    cases hd
  · intro ls u l v hrun ih hstep resets src dst hd
    have inv := consistent_of_run hrun
    have hold := ih (resetsFirst_of_append resets) src dst
    rcases step_cases hstep with ⟨i, rfl, hphase, rfl⟩ | ⟨i, rfl, hphase, rfl⟩ |
      ⟨src', dst', rfl, -, hne, hnot, rfl⟩ | ⟨i, rfl, hphase, hall, rfl⟩
    · -- nothing was delivered to a board that clears its list now
      have hdi : dst ≠ i := by
        rintro rfl
        by_cases hsd : src = dst
        · subst hsd
          have hsent := (inv.own src).mp hd
          rw [sent, hphase] at hsent
          cases hsent
        · exact resets ls dst [] (by simp) src ((inv.history src dst).mpr ⟨hsd, hd⟩)
      simpa [hdi] using hold hd
    · rw [setDelivered_delivered] at hd
      by_cases hdi : dst = i
      · subst hdi
        by_cases hsd : src = dst
        · subst hsd
          simp [get_set]
        · have hbefore : u.delivered src dst = true := by simpa [hsd] using hd
          simpa [get_set, hsd] using hold hbefore
      · have hbefore : u.delivered src dst = true := by simpa [hdi] using hd
        simpa [hdi] using hold hbefore
    · rw [setDelivered_delivered] at hd
      by_cases hdi : dst = dst'
      · subst hdi
        by_cases hsd : src = src'
        · subst hsd
          simp [get_set]
        · have hbefore : u.delivered src dst = true := by simpa [hsd] using hd
          simpa [get_set, hsd] using hold hbefore
      · have hbefore : u.delivered src dst = true := by simpa [hdi] using hd
        simpa [hdi] using hold hbefore
    · by_cases hdi : dst = i
      · subst hdi
        simpa using hold hd
      · simpa [hdi] using hold hd

/-- The value of `src` came to `dst` and is gone. -/
def Erased (s : PriorityNode) (src dst : Fin maxDevices) : Prop :=
  s.delivered src dst = true ∧ src ≠ dst ∧ (s.boards dst).phase ≠ .created ∧
    (s.boards dst).devicesRssi.get src = -127

/-- It does not come a second time. -/
theorem Erased.next {src dst : Fin maxDevices} (erased : s.Erased src dst)
    (h : s.step rssi l = some t) : t.Erased src dst := by
  obtain ⟨hd, hne, hcreated, hlist⟩ := erased
  rcases step_cases h with ⟨i, rfl, hphase, rfl⟩ | ⟨i, rfl, hphase, rfl⟩ |
    ⟨src', dst', rfl, -, hne', hnot, rfl⟩ | ⟨i, rfl, hphase, hall, rfl⟩
  · have hdi : dst ≠ i := by
      rintro rfl
      exact hcreated hphase
    exact ⟨hd, hne, by simpa [hdi] using hcreated, by simpa [hdi] using hlist⟩
  · refine ⟨by simp [hd], hne, ?_, ?_⟩
    · by_cases hdi : dst = i
      · simp [hdi]
      · simpa [hdi] using hcreated
    · by_cases hdi : dst = i
      · subst hdi
        simpa [get_set, hne] using hlist
      · simpa [hdi] using hlist
  · have hother : ¬ (src = src' ∧ dst = dst') := by
      rintro ⟨rfl, rfl⟩
      rw [hd] at hnot
      cases hnot
    refine ⟨by simp [hd], hne, ?_, ?_⟩
    · by_cases hdi : dst = dst'
      · subst hdi
        simpa using hcreated
      · simpa [hdi] using hcreated
    · by_cases hdi : dst = dst'
      · subst hdi
        have hsrc : src ≠ src' := fun hsrc => hother ⟨hsrc, rfl⟩
        simpa [get_set, hsrc] using hlist
      · simpa [hdi] using hlist
  · by_cases hdi : dst = i
    · subst hdi
      exact ⟨hd, hne, by simp, by simpa using hlist⟩
    · exact ⟨hd, hne, by simpa [hdi] using hcreated, by simpa [hdi] using hlist⟩

theorem erased_of_run {src dst : Fin maxDevices} (erased : s.Erased src dst)
    (h : (priorityMachine rssi).run s schedule = some t) : t.Erased src dst :=
  Machine.run_induction (P := fun _ t => t.Erased src dst) erased
    (fun _ _ _ _ _ ih hstep => ih.next hstep) h

/-- A list cleared after a delivery misses that value at the end, whatever the values are. -/
theorem erased_of_schedule {lists : Fin maxDevices → DevicesRssi}
    {first rest : List PriorityLabel} {src dst : Fin maxDevices}
    (h : (priorityMachine rssi).run (start lists) (first ++ .reset dst :: rest) = some s)
    (hdeliver : .deliver src dst ∈ first) : s.Erased src dst := by
  rw [Machine.run, Machine.runWith_append] at h
  obtain ⟨u, hu, hrest⟩ := Option.bind_eq_some_iff.mp h
  rw [Machine.runWith, if_pos rfl] at hrest
  obtain ⟨v, hv, hrest⟩ := Option.bind_eq_some_iff.mp hrest
  have inv : Consistent rssi first u := consistent_of_run hu
  obtain ⟨hne, hd⟩ := (inv.history src dst).mp hdeliver
  refine erased_of_run ?_ hrest
  have hstep : u.step rssi (.reset dst) = some v := hv
  rcases step_cases hstep with ⟨i, hi, hphase, rfl⟩ | ⟨i, hi, -⟩ | ⟨_, _, hi, -⟩ | ⟨i, hi, -⟩
  · cases hi
    exact ⟨hd, hne, by simp, by simp [get_pmResetPriorityList]⟩
  · cases hi
  · cases hi
  · cases hi

/-! ## Slots -/

/-- With the same complete list everywhere, the slots agree. -/
theorem slotsAgree_of_lists (inv : Consistent rssi schedule s) (computed : s.Computed)
    (same : ∀ i, (s.boards i).devicesRssi.get = rssi) : s.SlotsAgree rssi := by
  choose slots hslots using computed
  obtain ⟨first, hfirst⟩ : ∃ first, ∀ i,
      pmGetSuggestedPriority (s.boards i).devicesRssi = first := by
    refine ⟨pmGetSuggestedPriority (s.boards 0).devicesRssi, fun i => ?_⟩
    have hi := leads_pmGetSuggestedPriority (s.boards i).devicesRssi
    have h0 := leads_pmGetSuggestedPriority (s.boards 0).devicesRssi
    rw [same] at hi h0
    exact hi.unique h0
  have hslot : ∀ i, slots i = shiftedPriorities i first := by
    intro i
    rw [(inv.waiting i _ (hslots i)).1, hfirst]
  refine ⟨slots, hslots, ?_, first, ?_, ?_⟩
  · intro i j hij
    rw [hslot, hslot] at hij
    exact shiftedPriorities_injective first hij
  · rw [hslot]
    exact shiftedPriorities_eq_zero.mpr rfl
  · have hlead := leads_pmGetSuggestedPriority (s.boards 0).devicesRssi
    rwa [same, hfirst] at hlead

/-- A board whose own value is above all others in its list takes slot 0. -/
theorem slot_eq_zero (inv : Consistent rssi schedule s) {i : Fin maxDevices} {slot : Nat}
    (hslot : (s.boards i).phase = .waiting slot)
    (h : ∀ k, k ≠ i → (s.boards i).devicesRssi.get k < rssi i) : slot = 0 := by
  have hsent : s.sent i = true := by rw [sent, hslot]; rfl
  have hown := inv.provided i hsent
  have hlead : Leads (s.boards i).devicesRssi.get i := by
    refine leads_of_dominates fun k hk => ?_
    rw [hown]
    exact h k hk
  rw [(inv.waiting i slot hslot).1]
  exact shiftedPriorities_eq_zero.mpr
    (hlead.unique (leads_pmGetSuggestedPriority (s.boards i).devicesRssi))

/-- Values for which a lost broadcast of `src` puts both `src` and `dst` into slot 0. -/
def clash (src dst : Fin maxDevices) : Fin maxDevices → Int8 := fun i =>
  if i = src then 1 else if i = dst then 0 else -1

theorem not_slotsAgree_of_erased {src dst : Fin maxDevices}
    (inv : Consistent (clash src dst) schedule s) (erased : s.Erased src dst) :
    ¬ s.SlotsAgree (clash src dst) := by
  obtain ⟨-, hne, -, hlist⟩ := erased
  have below : ∀ i k, (s.boards i).phase ≠ .created → k ≠ src →
      (s.boards i).devicesRssi.get k = -127 ∨
        (s.boards i).devicesRssi.get k = if k = dst then 0 else -1 := by
    intro i k hi hk
    simpa [clash, hk] using inv.listed i hi k
  rintro ⟨slots, hslots, hinj, -⟩
  have hsrc : slots src = 0 := by
    refine slot_eq_zero inv (hslots src) fun k hk => ?_
    have hval : clash src dst src = 1 := if_pos rfl
    rw [hval]
    rcases below src k (by simp [hslots src]) hk with h | h
    · rw [h]
      decide
    · rw [h]
      split <;> decide
  have hdst : slots dst = 0 := by
    refine slot_eq_zero inv (hslots dst) fun k hk => ?_
    have hval : clash src dst dst = 0 := by simp [clash, hne.symm]
    rw [hval]
    by_cases hks : k = src
    · rw [hks, hlist]
      decide
    · rcases below dst k (by simp [hslots dst]) hks with h | h
      · rw [h]
        decide
      · rw [h, if_neg hk]
        decide
  exact hne (hinj (hsrc.trans hdst.symm))

end PriorityNode

/-- In an interleaving in which every forwarder has computed its slot, each after all four
broadcasts were delivered to it, the slots agree for all RSSI values if and only if no forwarder
cleared its list after a broadcast had been delivered to it. -/
theorem connection_slots_agree_iff (lists : Fin maxDevices → DevicesRssi)
    (schedule : List PriorityLabel)
    (complete : ∀ rssi, ∃ s, (priorityMachine rssi).run (.start lists) schedule = some s ∧
      s.Computed) :
    (∀ rssi s, (priorityMachine rssi).run (.start lists) schedule = some s →
        s.SlotsAgree rssi) ↔ ResetsFirst schedule := by
  constructor
  · intro agree first dst rest heq src hdeliver
    obtain ⟨s, hs, -⟩ := complete (PriorityNode.clash src dst)
    have inv := PriorityNode.consistent_of_run hs
    rw [heq] at hs
    refine PriorityNode.not_slotsAgree_of_erased inv
      (PriorityNode.erased_of_schedule hs hdeliver) ?_
    rw [← heq] at hs
    exact agree _ s hs
  · intro resets rssi s hs
    obtain ⟨s', hs', computed⟩ := complete rssi
    rw [hs'] at hs
    cases hs
    have inv := PriorityNode.consistent_of_run hs'
    refine PriorityNode.slotsAgree_of_lists inv computed fun i => ?_
    funext src
    obtain ⟨slot, hslot⟩ := computed i
    exact PriorityNode.stored_of_resetsFirst hs' resets ((inv.waiting i slot hslot).2 src)

/-- The tasks of all boards in step: everyone clears, provides and hears everyone. -/
def inStep : List PriorityLabel :=
  [.reset 0, .reset 1, .reset 2, .reset 3, .provide 0, .provide 1, .provide 2, .provide 3,
    .deliver 0 1, .deliver 0 2, .deliver 0 3, .deliver 1 0, .deliver 1 2, .deliver 1 3,
    .deliver 2 0, .deliver 2 1, .deliver 2 3, .deliver 3 0, .deliver 3 1, .deliver 3 2,
    .compute 0, .compute 1, .compute 2, .compute 3]

/-- The task of S starts when the broadcast of N has come in. -/
def lateReset : List PriorityLabel :=
  [.reset 0, .provide 0, .deliver 0 1, .reset 1, .reset 2, .reset 3, .provide 1, .provide 2,
    .provide 3, .deliver 0 2, .deliver 0 3, .deliver 1 0, .deliver 1 2, .deliver 1 3,
    .deliver 2 0, .deliver 2 1, .deliver 2 3, .deliver 3 0, .deliver 3 1, .deliver 3 2,
    .compute 0, .compute 1, .compute 2, .compute 3]

private theorem inStep_complete (rssi : Fin maxDevices → Int8) :
    ∃ s, (priorityMachine rssi).run (.start fun _ => pmResetPriorityList) inStep = some s ∧
      s.Computed := by
  refine ⟨_, rfl, fun i => ?_⟩
  match i with
  | 0 => exact ⟨_, rfl⟩
  | 1 => exact ⟨_, rfl⟩
  | 2 => exact ⟨_, rfl⟩
  | 3 => exact ⟨_, rfl⟩

private theorem inStep_resetsFirst : ResetsFirst inStep := by
  have positions : ∀ n < inStep.length, ∀ i src, inStep[n]? = some (.reset i) →
      .deliver src i ∉ inStep.take n := by decide
  intro first i rest heq src
  have hlt : first.length < inStep.length := by
    rw [heq, List.length_append, List.length_cons]
    omega
  have htake : inStep.take first.length = first := by rw [heq, List.take_left]
  have hat : inStep[first.length]? = some (.reset i) := by
    rw [heq, List.getElem?_append_right (Nat.le_refl _), Nat.sub_self, List.getElem?_cons_zero]
  rw [← htake]
  exact positions first.length hlt i src hat

/-- With the tasks in step the slots agree. -/
theorem connection_slots_agree_inStep :
    let rssi := (#v[-40, -60, -70, -80] : DevicesRssi).get
    ∃ s, (priorityMachine rssi).run (.start fun _ => pmResetPriorityList) inStep = some s ∧
      s.SlotsAgree rssi := by
  obtain ⟨s, hs, -⟩ := inStep_complete (#v[-40, -60, -70, -80] : DevicesRssi).get
  exact ⟨s, hs,
    (connection_slots_agree_iff _ inStep inStep_complete).mpr inStep_resetsFirst _ s hs⟩

/-- N with -40 dBm and S with -60 dBm both take slot 0 when the task of S starts after the
broadcast of N has come in. -/
theorem connection_slots_collide :
    let rssi := (#v[-40, -60, -70, -80] : DevicesRssi).get
    ∃ s, (priorityMachine rssi).run (.start fun _ => pmResetPriorityList) lateReset = some s ∧
      s.Computed ∧ (s.boards 0).phase = .waiting 0 ∧ (s.boards 1).phase = .waiting 0 ∧
      ¬ s.SlotsAgree rssi := by
  refine ⟨_, rfl, fun i => ?_, rfl, rfl, ?_⟩
  · match i with
    | 0 => exact ⟨_, rfl⟩
    | 1 => exact ⟨_, rfl⟩
    | 2 => exact ⟨_, rfl⟩
    | 3 => exact ⟨_, rfl⟩
  · rintro ⟨slots, hslots, hinj, -⟩
    have h0 : slots 0 = 0 := (ConnectPhase.waiting.inj (hslots 0)).symm
    have h1 : slots 1 = 0 := (ConnectPhase.waiting.inj (hslots 1)).symm
    exact absurd (hinj (h0.trans h1.symm)) (by decide)

end I4A
