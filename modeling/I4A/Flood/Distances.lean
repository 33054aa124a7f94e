import I4A.Flood.Model
import I4A.Node.Distance
import Mathlib.Algebra.BigOperators.Group.Finset.Basic
import Mathlib.Algebra.Order.BigOperators.Group.Finset
import Mathlib.Data.Fintype.Prod
import Mathlib.Algebra.GroupWithZero.Action.Defs

/-! # Distance updates settle

Whoever takes over a distance has a smaller one than before, where 0 counts as more
than any distance. What it sends in turn is less than what its own distance went
down by.
-/

namespace I4A

instance : Fintype Orientation where
  elems := {.north, .south, .east, .west, .center}
  complete o := by cases o <;> decide

/-- The distance in `PEER_UPDATE_DTR` and `SIBL_UPDATE_DTR`. -/
def RtEvent.update : RtEvent → Option (BitVec 32)
  | .sibl (.updateDtr event) => some event.dtr
  | .peer (.updateDtr event) => some event.dtr
  | _ => none

/-- A forwarder's distance. -/
def RtRole.dtr : RtRole → BitVec 32
  | .forwarder state => state.dtr
  | _ => 0

/-- 0 is no distance. -/
def distanceRank (dtr : BitVec 32) : Nat := if dtr = 0 then 2 ^ 32 else dtr.toNat

namespace Flood

variable {ι : Type*}

/-- Only distance updates are in flight. -/
def OnlyUpdates (t : Flood ι) : Prop := ∀ m ∈ t.flight, m.2.update.isSome = true

def dtr (t : Flood ι) (p : Port ι) : BitVec 32 := (t.roles p).dtr

/-- The guard of runs that only deliver messages. -/
def delivers (_ : Flood ι) : FloodLabel ι → Prop
  | .deliver _ _ => True
  | _ => False

/-- No peer distance in flight is the largest one, so that adding 1 to it is adding 1. -/
def Small (t : Flood ι) : Prop :=
  ∀ p dtr, (p, .peer (.updateDtr ⟨dtr⟩)) ∈ t.flight → dtr + 1 ≠ 0

/-- Adding 1 per hop does not reach 2 ^ 32 from here. -/
def StaysSmall [DecidableEq ι] (s : Flood ι) : Prop :=
  ∀ t, (floodMachine ι).Executes delivers s t → t.Small

end Flood

/-! ## One delivery -/

theorem distanceRank_lt {old new : BitVec 32} (hnew : new ≠ 0) (hbetter : old = 0 ∨ new < old) :
    distanceRank new < distanceRank old := by
  have hlt := new.isLt
  unfold distanceRank
  rw [if_neg hnew]
  split
  · exact hlt
  · next hold => exact hbetter.resolve_left hold

/-- The distance a board takes over from an update. -/
def RtEvent.offered : RtEvent → BitVec 32
  | .sibl (.updateDtr event) => event.dtr
  | .peer (.updateDtr event) => event.dtr + 1
  | _ => 0

/-- An update is refused and nothing is sent; or the board takes over a better distance and sends
it on at most once to its siblings and to its peer. -/
inductive UpdateCalls (role : RtRole) (ev : RtEvent) : RtRole × List RtAction → Prop where
  | refused : UpdateCalls role ev (role, [])
  | taken {role' : RtRole} {actions : List RtAction} (took : role'.dtr = ev.offered)
      (nonzero : role'.dtr ≠ 0) (better : role.dtr = 0 ∨ role'.dtr < role.dtr)
      (sibl : siblEvents actions = [] ∨ siblEvents actions = [.updateDtr ⟨role'.dtr⟩])
      (peer : peerMessages actions = [] ∨ peerMessages actions = [.updateDtr ⟨role'.dtr⟩]) :
      UpdateCalls role ev (role', actions)

theorem dispatch_updateCalls (self : Orientation) (role : RtRole) {ev : RtEvent}
    (update : ev.update.isSome = true)
    (small : ∀ dtr, ev = .peer (.updateDtr ⟨dtr⟩) → dtr + 1 ≠ 0) :
    ∃ result, dispatch self role ev = some result ∧ UpdateCalls role ev result := by
  cases ev with
  | sibl event =>
      cases event with
      | updateDtr event =>
          refine ⟨_, rfl, ?_⟩
          cases role with
          | forwarder state =>
              rcases Forwarder.Sibling.onUpdateDtr_cases state event with
                hkeep | ⟨hnonzero, hbetter, htake⟩
              · simp only [RtRole.ofForwarder, hkeep]
                exact .refused
              · simp only [RtRole.ofForwarder, htake]
                apply UpdateCalls.taken
                · rfl
                · exact hnonzero
                · exact hbetter
                · left
                  split <;> rfl
                · split
                  · exact .inr rfl
                  · exact .inl rfl
          | home state => exact .refused
          | root state => exact .refused
      | _ => cases update
  | peer event =>
      cases event with
      | updateDtr event =>
          refine ⟨_, rfl, ?_⟩
          cases role with
          | forwarder state =>
              rcases Forwarder.Peer.onUpdateDtr_cases self state event with
                ⟨-, hkeep⟩ | ⟨⟨-, hbetter⟩, htake⟩
              · simp only [RtRole.ofForwarder, hkeep]
                exact .refused
              · simp only [RtRole.ofForwarder, htake]
                apply UpdateCalls.taken
                · rfl
                · exact small event.dtr rfl
                · exact hbetter
                · exact .inr rfl
                · exact .inl rfl
          | home state => exact .refused
          | root state => exact .refused
      | _ => cases update

namespace Flood

variable {ι : Type*} {s t u : Flood ι} {p : Port ι} {ev : RtEvent}

/-- What is sent after an update are updates with the distance that was taken over. -/
theorem mem_sent_update {q : Port ι} {result : RtRole × List RtAction} {ev' : RtEvent}
    (calls : UpdateCalls (t.roles p) ev result) (h : (q, ev') ∈ t.sent p result.2) :
    result.1.dtr = ev.offered ∧
      (ev' = .sibl (.updateDtr ⟨result.1.dtr⟩) ∨ ev' = .peer (.updateDtr ⟨result.1.dtr⟩)) := by
  cases calls with
  | refused =>
      rcases mem_sent h with ⟨event, hevent, -⟩ | ⟨event, hevent, -⟩
      · exact absurd hevent List.not_mem_nil
      · exact absurd hevent List.not_mem_nil
  | taken took nonzero better sibl peer =>
      refine ⟨took, ?_⟩
      rcases mem_sent h with ⟨event, hevent, rfl⟩ | ⟨event, hevent, rfl⟩
      · rcases sibl with hnone | hone
        · rw [hnone] at hevent
          exact absurd hevent List.not_mem_nil
        · rw [hone, List.mem_singleton] at hevent
          exact .inl (by rw [hevent])
      · rcases peer with hnone | hone
        · rw [hnone] at hevent
          exact absurd hevent List.not_mem_nil
        · rw [hone, List.mem_singleton] at hevent
          exact .inr (by rw [hevent])

theorem sent_length_le (t : Flood ι) (p : Port ι) (actions : List RtAction) :
    (t.sent p actions).length ≤
      4 * (siblEvents actions).length + (peerMessages actions).length := by
  have hfour : p.2.siblings.length = 4 := by
    cases p.2 <;> decide
  rw [sent, List.length_append, List.length_flatMap]
  simp only [List.length_map, hfour, List.map_const', List.sum_replicate, smul_eq_mul]
  rw [Nat.mul_comm]
  apply Nat.add_le_add_left
  cases t.link p with
  | none => exact Nat.zero_le _
  | some q => exact (List.length_map _).le

theorem sent_length {result : RtRole × List RtAction} (calls : UpdateCalls (t.roles p) ev result) :
    (t.sent p result.2).length ≤ 5 := by
  have hle := sent_length_le t p result.2
  cases calls with
  | refused => exact hle.trans (Nat.zero_le _)
  | @taken role' actions took nonzero better sibl peer =>
      have hsibl : (siblEvents actions).length ≤ 1 := by
        rcases sibl with h | h <;> simp [h]
      have hpeer : (peerMessages actions).length ≤ 1 := by
        rcases peer with h | h <;> simp [h]
      simp only at hle ⊢
      omega

/-! ## The measure -/

theorem Small.of_mem (small : t.Small) (hmem : (p, ev) ∈ t.flight) :
    ∀ dtr, ev = .peer (.updateDtr ⟨dtr⟩) → dtr + 1 ≠ 0 := by
  rintro dtr rfl
  exact small p dtr hmem

variable [DecidableEq ι]

theorem step_update (updates : t.OnlyUpdates) (small : t.Small) {label : FloodLabel ι}
    (hg : delivers t label) (hstep : t.step label = some u) :
    ∃ p ev result, (p, ev) ∈ t.flight ∧ UpdateCalls (t.roles p) ev result ∧
      u = t.handled p ev result := by
  cases label with
  | deliver p ev =>
      obtain ⟨hmem, result, hd, hu⟩ := step_deliver hstep
      obtain ⟨result', hd', calls⟩ := dispatch_updateCalls p.2 (t.roles p) (updates (p, ev) hmem)
        (small.of_mem hmem)
      rw [hd] at hd'
      cases hd'
      exact ⟨p, ev, result, hmem, calls, hu⟩
  | other p role => exact hg.elim
  | relink link => exact hg.elim

theorem handled_dtr (t : Flood ι) (p : Port ι) (ev : RtEvent) (result : RtRole × List RtAction)
    (q : Port ι) :
    (t.handled p ev result).dtr q = if q = p then result.1.dtr else t.dtr q := by
  by_cases h : q = p
  · subst h
    rw [if_pos rfl]
    exact congrArg RtRole.dtr (Function.update_self ..)
  · rw [if_neg h]
    exact congrArg RtRole.dtr (Function.update_of_ne h ..)

theorem OnlyUpdates.handled {result : RtRole × List RtAction} (updates : t.OnlyUpdates)
    (calls : UpdateCalls (t.roles p) ev result) : (t.handled p ev result).OnlyUpdates := by
  rintro ⟨q, ev'⟩ hmem
  rcases List.mem_append.mp hmem with hold | hnew
  · exact updates _ (List.mem_of_mem_erase hold)
  · rcases (mem_sent_update calls hnew).2 with rfl | rfl <;> rfl

theorem dtr_handled {result : RtRole × List RtAction} (calls : UpdateCalls (t.roles p) ev result)
    {q : Port ι} (hq : t.dtr q ≠ 0) :
    (t.handled p ev result).dtr q ≠ 0 ∧ (t.handled p ev result).dtr q ≤ t.dtr q := by
  rw [handled_dtr]
  by_cases hqp : q = p
  · subst hqp
    rw [if_pos rfl]
    cases calls with
    | refused => exact ⟨hq, BitVec.le_refl _⟩
    | taken took nonzero better sibl peer =>
        exact ⟨nonzero, BitVec.le_of_lt (better.resolve_left hq)⟩
  · rw [if_neg hqp]
    exact ⟨hq, BitVec.le_refl _⟩

variable [Fintype ι]

/-- Six times the ranks of all boards, and the messages in flight. -/
def unsettled (t : Flood ι) : Nat :=
  6 * (∑ q : Port ι, distanceRank (t.dtr q)) + t.flight.length

theorem unsettled_handled {result : RtRole × List RtAction} (hmem : (p, ev) ∈ t.flight)
    (calls : UpdateCalls (t.roles p) ev result) :
    (t.handled p ev result).unsettled < t.unsettled := by
  have hpos : 0 < t.flight.length := List.length_pos_of_mem hmem
  have hlength : (t.handled p ev result).flight.length =
      t.flight.length - 1 + (t.sent p result.2).length := by
    show (t.flight.erase (p, ev) ++ t.sent p result.2).length = _
    rw [List.length_append, List.length_erase_of_mem hmem]
  have hsent := sent_length calls
  unfold unsettled
  cases calls with
  | refused =>
      have hnone : t.sent p [] = [] := by
        unfold sent
        cases t.link p <;> rfl
      have hsame : (t.handled p ev (t.roles p, [])).dtr = t.dtr := by
        funext q
        rw [handled_dtr]
        split
        next hqp => rw [hqp, dtr]
        next => rfl
      rw [hlength, hsame, hnone, List.length_nil]
      omega
  | @taken role' actions took nonzero better sibl peer =>
      have hfall : ∑ q : Port ι, distanceRank ((t.handled p ev (role', actions)).dtr q) <
          ∑ q : Port ι, distanceRank (t.dtr q) := by
        apply Finset.sum_lt_sum
        · intro q _
          rw [handled_dtr]
          split
          next hqp =>
            rw [hqp]
            exact (distanceRank_lt nonzero better).le
          next => exact Nat.le_refl _
        · refine ⟨p, Finset.mem_univ p, ?_⟩
          rw [handled_dtr, if_pos rfl]
          exact distanceRank_lt nonzero better
      simp only at hsent hlength ⊢
      omega

/-! ## Hops -/

/-- The boards with a distance up to `dtr`. -/
def within (t : Flood ι) (dtr : BitVec 32) : Finset (Port ι) :=
  Finset.univ.filter fun q => t.dtr q ≠ 0 ∧ t.dtr q ≤ dtr

omit [DecidableEq ι] in
theorem mem_within {dtr : BitVec 32} {q : Port ι} :
    q ∈ t.within dtr ↔ t.dtr q ≠ 0 ∧ t.dtr q ≤ dtr := by
  simp only [within, Finset.mem_filter, Finset.mem_univ, true_and]

/-- A distance in flight is above `d` only by boards that have taken over smaller ones. -/
def Hops (t : Flood ι) (d : Nat) : Prop :=
  ∀ m ∈ t.flight, ∀ dtr, m.2.update = some dtr → dtr.toNat ≤ d + (t.within dtr).card

theorem within_handled {result : RtRole × List RtAction}
    (calls : UpdateCalls (t.roles p) ev result) (dtr : BitVec 32) :
    t.within dtr ⊆ (t.handled p ev result).within dtr := by
  intro q hq
  rw [mem_within] at hq
  obtain ⟨hnonzero, hle⟩ := dtr_handled calls hq.1
  exact mem_within.mpr ⟨hnonzero, BitVec.le_trans hle hq.2⟩

/-- The board that takes over a peer's distance is one more within the new one. -/
theorem within_succ {role' : RtRole} {actions : List RtAction} {dtr : BitVec 32}
    (calls : UpdateCalls (t.roles p) ev (role', actions)) (nonzero : dtr + 1 ≠ 0)
    (took : role'.dtr = dtr + 1) (better : (t.roles p).dtr = 0 ∨ role'.dtr < (t.roles p).dtr) :
    (t.within dtr).card + 1 ≤ ((t.handled p ev (role', actions)).within (dtr + 1)).card := by
  have hout : p ∉ t.within dtr := by
    intro hin
    have hle : (t.roles p).dtr ≤ dtr := (mem_within.mp hin).2
    have hzero : (t.roles p).dtr ≠ 0 := (mem_within.mp hin).1
    rw [took] at better
    have hlt := better.resolve_left hzero
    bv_omega
  rw [← Finset.card_insert_of_notMem hout]
  apply Finset.card_le_card
  intro q hq
  rcases Finset.mem_insert.mp hq with rfl | hin
  · rw [mem_within, handled_dtr, if_pos rfl]
    show role'.dtr ≠ 0 ∧ role'.dtr ≤ dtr + 1
    rw [took]
    exact ⟨nonzero, BitVec.le_refl _⟩
  · obtain ⟨hnonzero, hle⟩ := mem_within.mp (within_handled calls dtr hin)
    rw [mem_within]
    refine ⟨hnonzero, ?_⟩
    bv_omega

theorem Hops.handled {d : Nat} (hops : t.Hops d) (updates : t.OnlyUpdates) (small : t.Small)
    (hmem : (p, ev) ∈ t.flight)
    {result : RtRole × List RtAction} (calls : UpdateCalls (t.roles p) ev result) :
    (t.handled p ev result).Hops d := by
  have grows : ∀ dtr, (t.within dtr).card ≤ ((t.handled p ev result).within dtr).card :=
    fun dtr => Finset.card_le_card (within_handled calls dtr)
  rintro ⟨q, ev'⟩ hm dtr hdtr
  rcases List.mem_append.mp hm with hold | hnew
  · exact (hops _ (List.mem_of_mem_erase hold) dtr hdtr).trans (Nat.add_le_add_left (grows dtr) d)
  · obtain ⟨-, hev'⟩ := mem_sent_update calls hnew
    obtain rfl : dtr = result.1.dtr := by
      rcases hev' with rfl | rfl <;> exact (Option.some.inj hdtr).symm
    cases calls with
    | refused =>
        rcases mem_sent hnew with ⟨event, hevent, -⟩ | ⟨event, hevent, -⟩
        · exact absurd hevent List.not_mem_nil
        · exact absurd hevent List.not_mem_nil
    | @taken role' actions took nonzero better sibl peer =>
        show role'.dtr.toNat ≤ _
        have hupdate := updates _ hmem
        cases ev with
        | sibl event =>
            cases event with
            | updateDtr event =>
                have took' : role'.dtr = event.dtr := took
                rw [took']
                have hsource := hops _ hmem event.dtr rfl
                exact hsource.trans (Nat.add_le_add_left (grows event.dtr) d)
            | _ => cases hupdate
        | peer event =>
            cases event with
            | updateDtr event =>
                have took' : role'.dtr = event.dtr + 1 := took
                have hsource := hops _ hmem event.dtr rfl
                have hnext := small.of_mem hmem event.dtr rfl
                have hmore := within_succ (.taken took nonzero better sibl peer) hnext took' better
                have hsucc : (event.dtr + 1).toNat = event.dtr.toNat + 1 := by bv_omega
                rw [took', hsucc]
                omega
            | _ => cases hupdate

omit [DecidableEq ι] in
theorem Hops.small {d : Nat} (hops : t.Hops d) (room : d + Fintype.card (Port ι) + 1 < 2 ^ 32) :
    t.Small := by
  intro p dtr hmem hzero
  have hle := hops _ hmem dtr rfl
  have hcard : (t.within dtr).card ≤ Fintype.card (Port ι) := Finset.card_le_univ _
  bv_omega

theorem staysSmall_of_room {d : Nat} (updates : s.OnlyUpdates)
    (start : ∀ m ∈ s.flight, ∀ dtr, m.2.update = some dtr → dtr.toNat ≤ d)
    (room : d + Fintype.card (Port ι) + 1 < 2 ^ 32) : s.StaysSmall := by
  intro t run
  have inv : t.OnlyUpdates ∧ t.Hops d := by
    induction run with
    | refl =>
        exact ⟨updates, fun m hm dtr hdtr => (start m hm dtr hdtr).trans (Nat.le_add_right ..)⟩
    | tail run hg hstep ih =>
        obtain ⟨updates, hops⟩ := ih
        obtain ⟨p, ev, result, hmem, calls, rfl⟩ :=
          step_update updates (hops.small room) hg hstep
        exact ⟨updates.handled calls, hops.handled updates (hops.small room) hmem calls⟩
  exact inv.2.small room

end Flood

open Flood

/-- Runs that only deliver distance updates are finite, and end with nothing in flight; a board
that had a distance has one no larger after any of them. -/
theorem distanceUpdates_settle {ι : Type*} [Fintype ι] [DecidableEq ι] (s : Flood ι)
    (updates : s.OnlyUpdates) (small : s.StaysSmall) :
    (∀ states labels, states 0 = s → ¬ (floodMachine ι).Endless delivers states labels) ∧
      ∀ t, (floodMachine ι).Executes delivers s t →
        (∀ p, s.dtr p ≠ 0 → t.dtr p ≠ 0 ∧ t.dtr p ≤ s.dtr p) ∧
          (t.flight ≠ [] → ∃ p ev u, (floodMachine ι).step t (.deliver p ev) = some u) := by
  have reached : ∀ t, (floodMachine ι).Executes delivers s t → t.OnlyUpdates := by
    intro t run
    induction run with
    | refl => exact updates
    | tail run hg hstep ih =>
        obtain ⟨p, ev, result, -, calls, rfl⟩ := step_update ih (small _ run) hg hstep
        exact ih.handled calls
  refine ⟨?_, fun t run => ⟨?_, ?_⟩⟩
  · rintro states labels rfl run
    apply run.false_of_falls unsettled
    intro t label u reaches hg hstep
    obtain ⟨p, ev, result, hmem, calls, rfl⟩ :=
      step_update (reached t reaches) (small t reaches) hg hstep
    exact unsettled_handled hmem calls
  · intro q hq
    induction run with
    | refl => exact ⟨hq, BitVec.le_refl _⟩
    | tail run hg hstep ih =>
        obtain ⟨p, ev, result, -, calls, rfl⟩ := step_update (reached _ run) (small _ run) hg hstep
        obtain ⟨hnonzero, hle⟩ := dtr_handled calls ih.1
        exact ⟨hnonzero, BitVec.le_trans hle ih.2⟩
  · intro hflight
    obtain ⟨⟨p, ev⟩, hmem⟩ := List.exists_mem_of_ne_nil _ hflight
    obtain ⟨result, hd, -⟩ := dispatch_updateCalls p.2 (t.roles p) (reached t run _ hmem)
      ((small t run).of_mem hmem)
    refine ⟨p, ev, t.handled p ev result, ?_⟩
    show (if _ then _ else _) = _
    rw [if_pos hmem, hd]
    rfl

/-! ## Two linked boards -/

/-- North of node `false` has just heard a distance 1; its peer is north of node `true`. -/
def hearsOne : Flood Bool where
  roles := fun _ => .forwarder { createForwarderCore with localState := .connected }
  link := fun p => if p.2 = .north then some (!p.1, .north) else none
  flight := [((false, .north), .peer (.updateDtr ⟨1⟩))]

theorem hearsOne_updates : hearsOne.OnlyUpdates := by
  intro m hm
  rw [List.mem_singleton.mp hm]
  rfl

theorem hearsOne_small : hearsOne.StaysSmall := by
  apply staysSmall_of_room (d := 1) hearsOne_updates
  · intro m hm dtr hdtr
    rw [List.mem_singleton.mp hm] at hdtr
    cases hdtr
    decide
  · decide

theorem distanceUpdates_settle_hearsOne :
    ¬ ∃ states labels, states 0 = hearsOne ∧
      (floodMachine Bool).Endless delivers states labels := by
  rintro ⟨states, labels, start, run⟩
  exact (distanceUpdates_settle hearsOne hearsOne_updates hearsOne_small).1 states labels start run

end I4A
