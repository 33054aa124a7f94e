import I4A.Core.Machine
import I4A.RingLink.Payload
import Mathlib.Data.List.Nodup
import Mathlib.Data.Nat.ModEq

/-! # A broadcast on its way round the ring

Boards in a ring, each transmitting to the next one, and one payload between them
that no one loses. The boards' ids are distinct; nothing else is known of them.
-/

namespace I4A

/-- The board that receives what board `i` transmits. -/
def ringNext {n : Nat} (i : Fin n) : Fin n := ⟨(i.val + 1) % n, Nat.mod_lt _ i.pos⟩

/-- The board `k` hops behind `i`. -/
def successor {n : Nat} (i : Fin n) (k : Nat) : Fin n := ⟨(i.val + k) % n, Nat.mod_lt _ i.pos⟩

structure Circulation (n : Nat) where
  /-- The payload on its way, with the board it comes to. -/
  wire : Option (Fin n × RingLinkPayload)
  /-- Calls of `node_on_sibling_message`, in order. -/
  messages : List (Fin n × SiblingMessage)
  /-- Notifications of the task that waits for its broadcast. -/
  completed : List (Fin n)
  /-- Payloads that `process_payload` dropped. -/
  dropped : Nat
  /-- Payloads that were transmitted again. -/
  forwarded : Nat

section Ring

variable (espCrc32Le : BitVec 32 → List UInt8 → BitVec 32) {n : Nat} (configId : Fin n → UInt8)
  (broadcastTask : Fin n → Bool)

namespace Circulation

/-- Board `i` has handled the payload that came to it. -/
def handled (t : Circulation n) (i : Fin n) (result : RingLinkResult) : Circulation n where
  wire := result.transmitted.map (ringNext i, ·)
  messages := t.messages ++ result.message.toList.map (i, ·)
  completed := if result.notified then t.completed ++ [i] else t.completed
  dropped := t.dropped
  forwarded := t.forwarded + result.transmitted.toList.length

/-- The next board takes the payload through `process_payload` and its queue. -/
def step (t : Circulation n) : Option (Circulation n) :=
  t.wire.map fun (i, p) =>
    match processPayload espCrc32Le p with
    | some .internal =>
        t.handled i (ringLinkInternalHandler espCrc32Le (configId i) (broadcastTask i) p)
    | _ => { t with wire := none, dropped := t.dropped + 1 }

/-- The origin has transmitted a payload. -/
def start (origin : Fin n) (p : RingLinkPayload) : Circulation n :=
  ⟨some (ringNext origin, p), [], [], 0, 0⟩

end Circulation

def circulationMachine : Machine (Circulation n) Unit :=
  ⟨fun t _ => t.step espCrc32Le configId broadcastTask⟩

end Ring

/-! ## Ring arithmetic -/

theorem successor_zero {n : Nat} (i : Fin n) : successor i 0 = i := by
  apply Fin.ext
  exact Nat.mod_eq_of_lt i.isLt

theorem ringNext_successor {n : Nat} (i : Fin n) (k : Nat) :
    ringNext (successor i k) = successor i (k + 1) := by
  apply Fin.ext
  show ((i.val + k) % n + 1) % n = (i.val + (k + 1)) % n
  rw [Nat.mod_add_mod, Nat.add_assoc]

theorem successor_injective {n : Nat} {i : Fin n} {j k : Nat} (hj : j < n) (hk : k < n)
    (h : successor i j = successor i k) : j = k := by
  have hmod : (i.val + j) % n = (i.val + k) % n := congrArg Fin.val h
  have hjk := Nat.ModEq.add_left_cancel' i.val hmod
  rwa [Nat.ModEq, Nat.mod_eq_of_lt hj, Nat.mod_eq_of_lt hk] at hjk

theorem successor_self {n : Nat} (i : Fin n) : successor i n = i := by
  apply Fin.ext
  show (i.val + n) % n = i.val
  rw [Nat.add_mod_right, Nat.mod_eq_of_lt i.isLt]

theorem exists_successor {n : Nat} {i origin : Fin n} (other : i ≠ origin) :
    ∃ k, k + 1 < n ∧ successor origin (k + 1) = i := by
  have hi : i.val < n := i.isLt
  have ho : origin.val < n := origin.isLt
  have hne : i.val ≠ origin.val := fun h => other (Fin.ext h)
  have hval : ∀ k, (origin.val + (k + 1)) % n = i.val → successor origin (k + 1) = i :=
    fun k h => Fin.ext h
  rcases Nat.lt_or_gt_of_ne hne with hlt | hgt
  · refine ⟨i.val + n - origin.val - 1, by omega, hval _ ?_⟩
    have hsum : origin.val + (i.val + n - origin.val - 1 + 1) = i.val + n := by omega
    rw [hsum, Nat.add_mod_right, Nat.mod_eq_of_lt hi]
  · refine ⟨i.val - origin.val - 1, by omega, hval _ ?_⟩
    have hsum : origin.val + (i.val - origin.val - 1 + 1) = i.val := by omega
    rw [hsum, Nat.mod_eq_of_lt hi]

/-- Of what goes once round the ring, every other board gets one. -/
theorem filter_successor {α : Type} {n : Nat} {i origin : Fin n} (other : i ≠ origin) (a : α) :
    ((List.range (n - 1)).map fun j => (successor origin (j + 1), a)).filter (·.1 = i) =
      [(i, a)] := by
  obtain ⟨k, hk, hsucc⟩ := exists_successor other
  have hfilter : (List.range (n - 1)).filter (fun j => successor origin (j + 1) = i) =
      (List.range (n - 1)).filter (· = k) := by
    apply List.filter_congr
    intro j hj
    rw [List.mem_range] at hj
    have hiff : successor origin (j + 1) = i ↔ j = k := by
      constructor
      · intro h
        have hsame := successor_injective (i := origin) (by omega) (by omega) (h.trans hsucc.symm)
        omega
      · rintro rfl
        exact hsucc
    simp only [hiff]
  have hone : (List.range (n - 1)).filter (· = k) = [k] := by
    rw [List.filter_eq, List.count_eq_one_of_mem List.nodup_range
      (List.mem_range.mpr (by omega))]
    rfl
  rw [List.filter_map]
  simp only [Function.comp_def, hfilter, hone, List.map_cons, List.map_nil, hsucc]

/-! ## One hop -/

section Hop

variable (espCrc32Le : BitVec 32 → List UInt8 → BitVec 32)

/-- The payload with another `ttl`, transmitted. -/
def RingLinkPayload.aged (p : RingLinkPayload) (ttl : UInt8) : RingLinkPayload :=
  ringLinkLowlevelTransmitPayload espCrc32Le { p with ttl := ttl }

variable {espCrc32Le}

theorem ringLinkComputeCrc32_transmit (p : RingLinkPayload) :
    ringLinkComputeCrc32 espCrc32Le (ringLinkLowlevelTransmitPayload espCrc32Le p) =
      (ringLinkLowlevelTransmitPayload espCrc32Le p).crc32 := rfl

theorem processPayload_aged {p : RingLinkPayload} (ttl : UInt8)
    (internal : p.bufferType = ringLinkPayloadTypeInternal) :
    processPayload espCrc32Le (p.aged espCrc32Le ttl) = some .internal := by
  have hinternal : (p.aged espCrc32Le ttl).isInternal = true := decide_eq_true internal
  unfold processPayload
  rw [RingLinkPayload.aged, ringLinkComputeCrc32_transmit, if_neg (fun h => h rfl)]
  exact if_pos hinternal

theorem ringLinkLowlevelForwardPayload_zero (p : RingLinkPayload) :
    ringLinkLowlevelForwardPayload espCrc32Le (p.aged espCrc32Le 0) = none := by
  unfold ringLinkLowlevelForwardPayload
  exact if_pos (UInt8.le_refl 0)

theorem ringLinkLowlevelForwardPayload_succ (p : RingLinkPayload) {ttl : Nat} (h : ttl + 1 < 256) :
    ringLinkLowlevelForwardPayload espCrc32Le (p.aged espCrc32Le (UInt8.ofNat (ttl + 1))) =
      some (p.aged espCrc32Le (UInt8.ofNat ttl)) := by
  have hpos : ¬ UInt8.ofNat (ttl + 1) ≤ 0 := by
    rw [UInt8.le_iff_toNat_le, UInt8.toNat_ofNat']
    simp only [UInt8.toNat_ofNat]
    omega
  have hpred : UInt8.ofNat (ttl + 1) - 1 = UInt8.ofNat ttl := by
    rw [UInt8.ofNat_add]
    simp
  unfold ringLinkLowlevelForwardPayload
  rw [if_neg (show ¬ (p.aged espCrc32Le (UInt8.ofNat (ttl + 1))).ttl ≤ 0 from hpos)]
  show some (p.aged espCrc32Le (UInt8.ofNat (ttl + 1) - 1)) = _
  rw [hpred]

theorem ringLinkInternalHandler_other {p : RingLinkPayload} (broadcast : p.dstId = configIdAll)
    {configId : UInt8} (other : p.srcId ≠ configId) (broadcastTask : Bool) (ttl : UInt8) :
    ringLinkInternalHandler espCrc32Le configId broadcastTask (p.aged espCrc32Le ttl) =
      { message := some (ringLinkInternalProcess p)
        notified := false
        transmitted := ringLinkLowlevelForwardPayload espCrc32Le (p.aged espCrc32Le ttl) } := by
  have hbroadcast : (p.aged espCrc32Le ttl).isBroadcast = true := decide_eq_true broadcast
  have hother : (p.aged espCrc32Le ttl).isFromDevice configId = false := decide_eq_false other
  rw [ringLinkInternalHandler, hbroadcast, if_pos rfl, broadcastHandler, hother,
    if_neg Bool.false_ne_true]
  rfl

theorem ringLinkInternalHandler_source {p : RingLinkPayload} (broadcast : p.dstId = configIdAll)
    (broadcastTask : Bool) (ttl : UInt8) :
    ringLinkInternalHandler espCrc32Le p.srcId broadcastTask (p.aged espCrc32Le ttl) =
      ⟨none, broadcastTask, none⟩ := by
  have hbroadcast : (p.aged espCrc32Le ttl).isBroadcast = true := decide_eq_true broadcast
  have hsource : (p.aged espCrc32Le ttl).isFromDevice p.srcId = true := decide_eq_true rfl
  rw [ringLinkInternalHandler, hbroadcast, if_pos rfl, broadcastHandler, hsource, if_pos rfl]

end Hop

/-! ## The whole way -/

section Way

variable (espCrc32Le : BitVec 32 → List UInt8 → BitVec 32) {n : Nat} (configId : Fin n → UInt8)
  (broadcastTask : Fin n → Bool) (origin : Fin n) (p : RingLinkPayload) (ttl : Nat)

namespace Circulation

/-- After `k` boards have handled the payload. -/
def after (k : Nat) : Circulation n where
  wire :=
    if k ≤ ttl then some (successor origin (k + 1), p.aged espCrc32Le (UInt8.ofNat (ttl - k)))
    else none
  messages := (List.range k).map fun j => (successor origin (j + 1), ringLinkInternalProcess p)
  completed := []
  dropped := 0
  forwarded := min k ttl

/-- Back at its origin. -/
def returned : Circulation n :=
  { after espCrc32Le origin p ttl (n - 1) with wire := none, completed := [origin] }

variable {espCrc32Le configId broadcastTask origin p ttl}

theorem step_after (internal : p.bufferType = ringLinkPayloadTypeInternal)
    (broadcast : p.dstId = configIdAll) (httl : ttl < 256) {k : Nat} (hk : k ≤ ttl)
    (other : p.srcId ≠ configId (successor origin (k + 1))) :
    (after espCrc32Le origin p ttl k).step espCrc32Le configId broadcastTask =
      some (after espCrc32Le origin p ttl (k + 1)) := by
  have hwire : (after espCrc32Le origin p ttl k).wire =
      some (successor origin (k + 1), p.aged espCrc32Le (UInt8.ofNat (ttl - k))) := if_pos hk
  have hmessages : (List.range (k + 1)).map
      (fun j => (successor origin (j + 1), ringLinkInternalProcess p)) =
        (List.range k).map (fun j => (successor origin (j + 1), ringLinkInternalProcess p)) ++
          [(successor origin (k + 1), ringLinkInternalProcess p)] := by
    rw [List.range_succ, List.map_append]
    rfl
  rw [step, hwire, Option.map_some]
  simp only [processPayload_aged _ internal, ringLinkInternalHandler_other broadcast other,
    Option.some.injEq, handled, after, hmessages]
  by_cases hlast : k = ttl
  · subst hlast
    rw [Nat.sub_self]
    simp [ringLinkLowlevelForwardPayload_zero]
  · have hsub : ttl - k = (ttl - (k + 1)) + 1 := by omega
    have hlt : k + 1 ≤ ttl := by omega
    rw [hsub, ringLinkLowlevelForwardPayload_succ p (by omega)]
    simp [ringNext_successor, hlt, hk]

/-- Until it is back or its time is over. -/
theorem reaches_after (internal : p.bufferType = ringLinkPayloadTypeInternal)
    (broadcast : p.dstId = configIdAll) (httl : ttl < 256)
    (distinct : Function.Injective configId) (source : p.srcId = configId origin) {k : Nat}
    (hk : k ≤ ttl + 1) (hn : k < n) :
    (circulationMachine espCrc32Le configId broadcastTask).Reaches
      (start origin (p.aged espCrc32Le (UInt8.ofNat ttl))) (after espCrc32Le origin p ttl k) := by
  induction k with
  | zero =>
      have hstart : start origin (p.aged espCrc32Le (UInt8.ofNat ttl)) =
          after espCrc32Le origin p ttl 0 := by
        simp [start, after, ← ringNext_successor, successor_zero]
      rw [hstart]
      exact .refl _
  | succ k ih =>
      have other : p.srcId ≠ configId (successor origin (k + 1)) := by
        intro h
        have hback := distinct (source.symm.trans h)
        have hzero : 0 = k + 1 :=
          successor_injective (by omega) hn ((successor_zero origin).trans hback)
        omega
      have hstep : (after espCrc32Le origin p ttl k).step espCrc32Le configId broadcastTask =
          some (after espCrc32Le origin p ttl (k + 1)) :=
        step_after internal broadcast httl (by omega) other
      exact (ih (by omega) (by omega)).tail (l := ()) trivial hstep

theorem step_back (internal : p.bufferType = ringLinkPayloadTypeInternal)
    (broadcast : p.dstId = configIdAll) (source : p.srcId = configId origin)
    (waits : broadcastTask origin = true) (hn : 2 ≤ n) (hback : n ≤ ttl + 1) :
    (after espCrc32Le origin p ttl (n - 1)).step espCrc32Le configId broadcastTask =
      some (returned espCrc32Le origin p ttl) := by
  have hwire : (after espCrc32Le origin p ttl (n - 1)).wire =
      some (origin, p.aged espCrc32Le (UInt8.ofNat (ttl - (n - 1)))) := by
    rw [after, if_pos (by omega), Nat.sub_add_cancel (by omega), successor_self]
  rw [step, hwire, Option.map_some]
  simp only [processPayload_aged _ internal, ← source, ringLinkInternalHandler_source broadcast,
    waits]
  simp [handled, returned, after]

/-- Some boards have handled the payload, or it is back. -/
def OnWay (espCrc32Le : BitVec 32 → List UInt8 → BitVec 32) (origin : Fin n)
    (p : RingLinkPayload) (ttl : Nat) (t : Circulation n) : Prop :=
  (∃ k < n, t = after espCrc32Le origin p ttl k) ∨ t = returned espCrc32Le origin p ttl

theorem OnWay.next (internal : p.bufferType = ringLinkPayloadTypeInternal)
    (broadcast : p.dstId = configIdAll) (httl : ttl < 256)
    (distinct : Function.Injective configId) (source : p.srcId = configId origin)
    (waits : broadcastTask origin = true) (hn : 2 ≤ n) (hback : n ≤ ttl + 1)
    {t u : Circulation n} (inv : t.OnWay espCrc32Le origin p ttl)
    (hstep : t.step espCrc32Le configId broadcastTask = some u) :
    u.OnWay espCrc32Le origin p ttl := by
  rcases inv with ⟨k, hk, rfl⟩ | rfl
  · by_cases hlast : k = n - 1
    · rw [hlast, step_back internal broadcast source waits hn hback] at hstep
      exact .inr (Option.some.inj hstep).symm
    · have other : p.srcId ≠ configId (successor origin (k + 1)) := by
        intro h
        have hzero : 0 = k + 1 := successor_injective (by omega) (by omega)
          ((successor_zero origin).trans (distinct (source.symm.trans h)))
        omega
      rw [step_after internal broadcast httl (by omega) other] at hstep
      exact .inl ⟨k + 1, by omega, (Option.some.inj hstep).symm⟩
  · cases hstep

/-- A run that has completed the broadcast has brought it all the way round. -/
theorem eq_returned_of_completed (internal : p.bufferType = ringLinkPayloadTypeInternal)
    (broadcast : p.dstId = configIdAll) (httl : ttl < 256)
    (distinct : Function.Injective configId) (source : p.srcId = configId origin)
    (waits : broadcastTask origin = true) (hn : 2 ≤ n) (hback : n ≤ ttl + 1)
    {t : Circulation n}
    (run : (circulationMachine espCrc32Le configId broadcastTask).Reaches
      (start origin (p.aged espCrc32Le (UInt8.ofNat ttl))) t)
    (completed : t.completed ≠ []) : t = returned espCrc32Le origin p ttl := by
  have first : (start origin (p.aged espCrc32Le (UInt8.ofNat ttl))).OnWay espCrc32Le origin p
      ttl := by
    refine .inl ⟨0, by omega, ?_⟩
    simp [start, after, ← ringNext_successor, successor_zero]
  have onWay : t.OnWay espCrc32Le origin p ttl := run.invariant first fun _ _ _ inv _ hstep =>
    inv.next internal broadcast httl distinct source waits hn hback hstep
  rcases onWay with ⟨k, -, rfl⟩ | h
  · exact absurd rfl completed
  · exact h

/-- What every run of the ring ends with. -/
structure Delivered (t : Circulation n) (origin : Fin n) (message : List UInt8) (ttl : Nat) :
    Prop where
  stopped : t.wire = none
  messages : t.messages = (List.range (min (n - 1) (ttl + 1))).map fun j =>
    (successor origin (j + 1), ⟨message, UInt16.ofNat message.length⟩)
  once : (t.messages.map Prod.fst).Nodup
  accepted : t.dropped = 0
  completed : t.completed = if n ≤ ttl + 1 then [origin] else []
  forwarded : t.forwarded ≤ ttl

theorem once_of_messages {message : SiblingMessage} {k : Nat} (hk : k < n) :
    (((List.range k).map fun j => (successor origin (j + 1), message)).map Prod.fst).Nodup := by
  rw [List.map_map]
  apply List.Nodup.map_on
  · intro i hi j hj h
    rw [List.mem_range] at hi hj
    have hsucc := successor_injective (by omega) (by omega) h
    omega
  · exact List.nodup_range

/-- With enough hops every other board has had it when it is back. -/
theorem delivered_back {message : List UInt8}
    (carried : ringLinkInternalProcess p = ⟨message, UInt16.ofNat message.length⟩)
    (hn : 2 ≤ n) (hback : n ≤ ttl + 1) :
    (returned espCrc32Le origin p ttl).Delivered origin message ttl := by
  have hmin : min (n - 1) (ttl + 1) = n - 1 := by omega
  constructor
  · rfl
  · rw [hmin, ← carried]
    rfl
  · exact once_of_messages (by omega)
  · rfl
  · rw [if_pos hback]
    rfl
  · exact Nat.min_le_right ..

/-- Without, the board at which its time is over is the last. -/
theorem delivered_expired {message : List UInt8}
    (carried : ringLinkInternalProcess p = ⟨message, UInt16.ofNat message.length⟩)
    (hexpired : ttl + 1 < n) :
    (after espCrc32Le origin p ttl (ttl + 1)).Delivered origin message ttl := by
  have hmin : min (n - 1) (ttl + 1) = ttl + 1 := by omega
  constructor
  · exact if_neg (by omega)
  · rw [hmin, ← carried]
    rfl
  · exact once_of_messages hexpired
  · rfl
  · rw [if_neg (by omega)]
    rfl
  · exact Nat.min_le_right ..

end Circulation

end Way

/-! ## From `send_broadcast` on -/

open Circulation

/-- A broadcast reaches the first boards behind its origin, each once and unchanged, and comes
back if there are hops enough. -/
theorem broadcast_circulates (espCrc32Le : BitVec 32 → List UInt8 → BitVec 32) {n : Nat}
    (hn : 2 ≤ n) (configId : Fin n → UInt8) (distinct : Function.Injective configId)
    (broadcastTask : Fin n → Bool) (origin : Fin n) (waits : broadcastTask origin = true)
    (idCounter ttl padding : UInt8) (message : List UInt8)
    (fits : message.length ≤ ringLinkNetifMtu) :
    ∃ sent t, sendBroadcast espCrc32Le idCounter (configId origin) ttl padding message = some sent ∧
      t.Delivered origin message ttl.toNat ∧
      ∀ u, (circulationMachine espCrc32Le configId broadcastTask).Reaches (start origin sent) u →
        (circulationMachine espCrc32Le configId broadcastTask).Reaches u t := by
  let p := broadcastPayload idCounter (configId origin) ttl padding message
  have hsent : sendBroadcast espCrc32Le idCounter (configId origin) ttl padding message =
      some (p.aged espCrc32Le (UInt8.ofNat ttl.toNat)) := by
    rw [UInt8.ofNat_toNat]
    exact if_neg (Nat.not_lt.mpr fits)
  have hmessage : ringLinkInternalProcess p = ⟨message, UInt16.ofNat message.length⟩ :=
    broadcastPayload_message _ _ _ _ fits
  have httl : ttl.toNat < 256 := ttl.toNat_lt
  have way : ∀ k, k ≤ ttl.toNat + 1 → k < n →
      (circulationMachine espCrc32Le configId broadcastTask).Reaches
        (start origin (p.aged espCrc32Le (UInt8.ofNat ttl.toNat)))
        (after espCrc32Le origin p ttl.toNat k) := by
    intro k hk hkn
    exact reaches_after rfl rfl httl distinct rfl hk hkn
  by_cases hback : n ≤ ttl.toNat + 1
  · refine ⟨_, returned espCrc32Le origin p ttl.toNat, hsent,
      delivered_back hmessage hn hback, ?_⟩
    intro u run
    have hlast : (after espCrc32Le origin p ttl.toNat (n - 1)).step espCrc32Le configId
        broadcastTask = some (returned espCrc32Le origin p ttl.toNat) :=
      step_back rfl rfl rfl waits hn hback
    exact run.to_stuck ((way (n - 1) (by omega) (by omega)).tail (l := ()) trivial hlast) rfl
  · have hexpired : ttl.toNat + 1 < n := by omega
    refine ⟨_, after espCrc32Le origin p ttl.toNat (ttl.toNat + 1), hsent,
      delivered_expired hmessage hexpired, ?_⟩
    intro u run
    apply run.to_stuck (way _ (Nat.le_refl _) hexpired)
    show (after espCrc32Le origin p ttl.toNat (ttl.toNat + 1)).step _ _ _ = none
    have hwire : (after espCrc32Le origin p ttl.toNat (ttl.toNat + 1)).wire = none :=
      if_neg (by omega)
    rw [step, hwire, Option.map_none]

theorem fiveIds_injective : Function.Injective fun i : Fin 5 => UInt8.ofNat i.val := by
  unfold Function.Injective
  decide

/-- Five boards and four hops: all four siblings have it, and the broadcast completes. -/
theorem broadcast_circulates_five : ∃ t : Circulation 5,
    t.Delivered 0 [1, 2, 3] 4 ∧ t.completed = [0] := by
  obtain ⟨_, t, -, delivered, -⟩ := broadcast_circulates (fun _ bytes => bytes.length)
    (by decide : 2 ≤ 5) (fun i => UInt8.ofNat i.val) fiveIds_injective (fun _ => true) 0 rfl 0 4 0
    [1, 2, 3] (by decide)
  exact ⟨t, delivered, delivered.completed⟩

end I4A
