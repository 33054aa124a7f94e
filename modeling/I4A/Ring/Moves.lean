import Mathlib.Data.List.Count
import I4A.Ring.Model

/-! # Tables and refreshes on the ring

The invariant behind the shared table: for every board, handling the refreshes
on their way to it would leave it with the table of the last board that modified
it. This module proves it for the moves that no table sees.
-/

namespace I4A

open SharedRing

/-! ## Messages on their way -/

def RingMsg.isGrant : RingMsg → Bool
  | .sync msg => msg.isGrant .routing
  | _ => false

/-- The message is the grant that lets board `o` enter. -/
def RingMsg.grants (o : Orientation) (m : RingMsg) : Bool := m = .sync (.tokenGrant .routing o)

/-- Refreshes in a list of messages. -/
def refreshes (messages : List RingMsg) : List RtRoutingTable :=
  messages.filterMap RingMsg.refresh

@[simp] theorem refreshes_nil : refreshes [] = [] := rfl

@[simp] theorem refreshes_append (first second : List RingMsg) :
    refreshes (first ++ second) = refreshes first ++ refreshes second :=
  List.filterMap_append

theorem refreshes_eq_nil {messages : List RingMsg} (h : ∀ m ∈ messages, m.refresh = none) :
    refreshes messages = [] :=
  List.filterMap_eq_nil_iff.mpr h

@[simp] theorem refreshes_sync (sent : List SyncMsg) :
    refreshes (sent.map RingMsg.sync) = [] :=
  refreshes_eq_nil (by simp [RingMsg.refresh])

theorem refreshes_cons_plain {m : RingMsg} (h : m.refresh = none) (rest : List RingMsg) :
    refreshes (m :: rest) = refreshes rest := by
  simp [refreshes, h]

theorem countP_sync_isGrant (sent : List SyncMsg) :
    (sent.map RingMsg.sync).countP RingMsg.isGrant = grantsOf .routing sent := by
  rw [List.countP_map]
  rfl

/-- What a broadcast under way still brings to a board. -/
def Sending.bringsTo (sending : Sending) (o : Orientation) : List RingMsg :=
  if o ∈ sending.left then [sending.msg] else []

/-- Live tokens in a broadcast under way. -/
def Sending.tokens (sending : Sending) : Nat :=
  Orientation.total fun o => (sending.bringsTo o).countP (·.grants o)

namespace RingBoard

variable (b : RingBoard)

def inside : Bool := b.sync.isInside .routing

def broadcasts : Option Sending → Orientation → List RingMsg
  | some sending, o => sending.bringsTo o
  | none, _ => []

/-- What the board's siblings task has on the way to `o`, in order. -/
def transit (o : Orientation) : List RingMsg := broadcasts b.sending o ++ b.outbox

/-- Live tokens that the board holds or sends, or that wait in its inbox. -/
def tokens (o : Orientation) : Nat :=
  b.inbox.countP (·.grants o) + b.outbox.countP RingMsg.isGrant +
    b.others.countP RingMsg.isGrant + (b.sending.map Sending.tokens).getD 0 +
    b.sync.held .routing

/-- The invariant of one board. -/
structure Ok (o : Orientation) (b : RingBoard) : Prop where
  orientation : b.sync.orientation = o
  first : b.sync.leader.firstDeviceToGetToken = .north
  inside_iff : b.inside = decide (b.task = some .routing)
  /-- Grants go to other boards. -/
  outboxAway : ∀ d, .sync (.tokenGrant .routing d) ∈ b.outbox → d ≠ o
  othersAway : ∀ d, .sync (.tokenGrant .routing d) ∈ b.others → d ≠ o
  leftAway : ∀ s, b.sending = some s → o ∉ s.left
  /-- Refreshes are sent from inside the critical section, by the siblings task. -/
  outboxRefresh : ∀ m ∈ b.outbox, m.refresh ≠ none → b.inside = true
  othersPlain : ∀ m ∈ b.others, m.refresh = none
  sendingRefresh : ∀ s, b.sending = some s → s.msg.refresh ≠ none →
    s.own = true ∧ b.inside = true
  /-- No refresh has arrived after the grant. -/
  fresh : b.inbox.Pairwise fun m m' => m.grants o = true → m'.refresh = none

/-- Outside the critical section a board has no refresh on the way. -/
theorem Ok.transit_plain {b : RingBoard} {o : Orientation} (h : b.Ok o)
    (hout : b.inside = false) (d : Orientation) : refreshes (b.transit d) = [] := by
  refine refreshes_eq_nil fun m hm => ?_
  by_contra hne
  rcases List.mem_append.mp hm with hm | hm
  · cases hs : b.sending with
    | none => simp [RingBoard.broadcasts, hs] at hm
    | some s =>
        have hmsg : m = s.msg := by
          simp only [RingBoard.broadcasts, hs, Sending.bringsTo] at hm
          split at hm
          · simpa using hm
          · cases hm
        subst hmsg
        have hin := (h.sendingRefresh s hs hne).2
        rw [hout] at hin
        cases hin
  · have hin := h.outboxRefresh m hm hne
    rw [hout] at hin
    cases hin

end RingBoard

namespace SharedRing

variable {t : SharedRing}

/-- The leader's flag. -/
def isTokenOut (t : SharedRing) : Bool :=
  (t.boards .center).sync.leader.isTokenOut .routing

/-- The invariant of the node. -/
structure SingleCopy (t : SharedRing) : Prop where
  ok : ∀ o, (t.boards o).Ok o
  tokens : (Orientation.total fun o => (t.boards o).tokens o) = if t.isTokenOut then 1 else 0
  /-- The board inside has the last written table, and nothing overwrites it. -/
  own : ∀ o, (t.boards o).inside = true →
    (t.boards o).table = t.lastWritten ∧ refreshes (t.boards o).inbox = []
  /-- Any other board will have it after the refreshes on their way. -/
  seen : ∀ o b, b ≠ o → (∀ c, (t.boards c).inside = true → c = b) →
    settle (t.boards o).table
      (refreshes (t.boards o).inbox ++ refreshes ((t.boards b).transit o)) = t.lastWritten

/-! ## Tokens -/

theorem total_owed (horient : ∀ o, (t.boards o).sync.orientation = o) :
    (Orientation.total fun o => (t.boards o).sync.owed .routing) =
      if t.isTokenOut then 1 else 0 := by
  have hfollower : ∀ o, o ≠ .center → (t.boards o).sync.owed .routing = 0 := fun o ho =>
    Sync.owed_follower (by simp [Sync.isLeader, horient o, ho])
  have hleader : (t.boards .center).sync.owed .routing = if t.isTokenOut then 1 else 0 :=
    Sync.owed_leader (by simp [Sync.isLeader, horient .center])
  simp [Orientation.total, hfollower, hleader]

theorem SingleCopy.token_at (h : t.SingleCopy) {o : Orientation} (ho : 0 < (t.boards o).tokens o) :
    t.isTokenOut = true ∧ (t.boards o).tokens o = 1 ∧
      ∀ o', o' ≠ o → (t.boards o').tokens o' = 0 := by
  have hle := Orientation.le_total (fun o => (t.boards o).tokens o) o
  have htokens := h.tokens
  have hout : t.isTokenOut = true := by
    by_contra hno
    rw [if_neg hno] at htokens
    omega
  rw [if_pos hout] at htokens
  refine ⟨hout, by omega, fun o' hne => ?_⟩
  by_contra hpos
  have htwo : 2 ≤ Orientation.total fun o => (t.boards o).tokens o :=
    Orientation.two_le_total hne (Nat.pos_of_ne_zero hpos) ho
  omega

theorem SingleCopy.unique (h : t.SingleCopy) {o o' : Orientation}
    (ho : 0 < (t.boards o).tokens o) (ho' : (t.boards o').inside = true) : o' = o := by
  by_contra hne
  have hzero := (h.token_at ho).2.2 o' hne
  have hin : (t.boards o').sync.isInside .routing = true := ho'
  simp [RingBoard.tokens, Sync.held, hin] at hzero

theorem tokens_of_inside {b : RingBoard} {o : Orientation} (h : b.inside = true) :
    0 < b.tokens o := by
  have hin : b.sync.isInside .routing = true := h
  have hheld : b.sync.held .routing = 1 := by simp [Sync.held, hin]
  simp only [RingBoard.tokens, hheld]
  omega

end SharedRing

/-! ## Moves that change neither tables nor refreshes -/

namespace RingBoard

/-- A move of board `o` neither makes nor loses a token. -/
def Keeps (o : Orientation) (b b' : RingBoard) : Prop :=
  b'.tokens o + b.sync.owed .routing = b.tokens o + b'.sync.owed .routing

/-- A move of board `o` that the tables do not see. -/
structure Quiet (o : Orientation) (b b' : RingBoard) : Prop where
  ok : b'.Ok o
  keeps : b.Keeps o b'
  table : b'.table = b.table
  inbox : refreshes b'.inbox = refreshes b.inbox
  transit : ∀ d, d ≠ o → refreshes (b'.transit d) = refreshes (b.transit d)
  inside : b'.inside = b.inside

end RingBoard

namespace SharedRing

variable {t : SharedRing}

theorem move_self (t : SharedRing) (o : Orientation) (b : RingBoard) :
    (t.move o b).boards o = b := Function.update_self _ _ _

theorem move_of_ne (t : SharedRing) {o o' : Orientation} (b : RingBoard) (h : o' ≠ o) :
    (t.move o b).boards o' = t.boards o' := Function.update_of_ne h _ _

/-- Local invariants and token count after a move, from those of the board that moved. -/
theorem SingleCopy.move_tokens (h : t.SingleCopy) {o : Orientation} {b : RingBoard}
    (ok : b.Ok o) (keeps : (t.boards o).Keeps o b) :
    (∀ o', ((t.move o b).boards o').Ok o') ∧
      (Orientation.total fun o' => ((t.move o b).boards o').tokens o') =
        if (t.move o b).isTokenOut then 1 else 0 := by
  have hok : ∀ o', ((t.move o b).boards o').Ok o' := by
    intro o'
    by_cases ho : o' = o
    · subst ho
      rw [move_self]
      exact ok
    · rw [move_of_ne t b ho]
      exact h.ok o'
  refine ⟨hok, ?_⟩
  have htotal := h.tokens
  rw [← total_owed fun o => (h.ok o).orientation] at htotal
  rw [← total_owed fun o => (hok o).orientation]
  have htokens := Orientation.total_move (fun o b => RingBoard.tokens b o) t.boards o b
  have howed := Orientation.total_move (fun _ b => b.sync.owed .routing) t.boards o b
  unfold RingBoard.Keeps at keeps
  change (Orientation.total fun o' => (Function.update t.boards o b o').tokens o') =
    Orientation.total fun o' => (Function.update t.boards o b o').sync.owed .routing
  omega

end SharedRing

theorem SharedRing.SingleCopy.move {t : SharedRing} (h : t.SingleCopy) {o : Orientation}
    {b : RingBoard} (quiet : (t.boards o).Quiet o b) : (t.move o b).SingleCopy := by
  obtain ⟨hok, htokens⟩ := h.move_tokens quiet.ok quiet.keeps
  have hlast : (t.move o b).lastWritten = t.lastWritten := if_pos quiet.table
  have hview : ∀ o', ((t.move o b).boards o').inside = (t.boards o').inside ∧
      ((t.move o b).boards o').table = (t.boards o').table ∧
      refreshes ((t.move o b).boards o').inbox = refreshes (t.boards o').inbox := by
    intro o'
    by_cases ho : o' = o
    · subst ho
      rw [move_self]
      exact ⟨quiet.inside, quiet.table, quiet.inbox⟩
    · rw [move_of_ne t b ho]
      exact ⟨rfl, rfl, rfl⟩
  refine ⟨hok, htokens, fun o' ho' => ?_, fun o' c hne hc => ?_⟩
  · obtain ⟨hinside, htable, hinbox⟩ := hview o'
    rw [hinside] at ho'
    rw [htable, hinbox, hlast]
    exact h.own o' ho'
  · obtain ⟨-, htable, hinbox⟩ := hview o'
    rw [htable, hinbox, hlast]
    have hold := h.seen o' c hne fun c' hc' => hc c' (by rw [(hview c').1]; exact hc')
    by_cases hco : c = o
    · subst hco
      rw [move_self, quiet.transit o' (Ne.symm hne)]
      exact hold
    · rw [move_of_ne t b hco]
      exact hold

namespace RingBoard

/-- A broadcast that starts carries as many tokens as its message is a grant. -/
theorem tokens_startSending {o : Orientation} {m : RingMsg} (own : Bool)
    (away : ∀ d, m = .sync (.tokenGrant .routing d) → d ≠ o) :
    Sending.tokens ⟨m, o.siblings, own⟩ = if m.isGrant then 1 else 0 := by
  by_cases hm : ∃ d, m = .sync (.tokenGrant .routing d)
  · obtain ⟨d, rfl⟩ := hm
    have hd := away d rfl
    revert hd
    cases o <;> cases d <;> cases own <;> decide
  · have hgrant : m.isGrant = false := by
      cases m with
      | sync msg =>
          cases msg with
          | tokenRequest c => rfl
          | tokenGrant c d =>
              have hc : c ≠ .routing := by
                rintro rfl
                exact hm ⟨d, rfl⟩
              simp [RingMsg.isGrant, SyncMsg.isGrant, hc]
      | sharedState c table => rfl
      | routing event => rfl
    have hnone : ∀ d, m.grants d = false := fun d => by
      simpa [RingMsg.grants] using fun hmd => hm ⟨d, hmd⟩
    have hzero : ∀ d, (Sending.bringsTo ⟨m, o.siblings, own⟩ d).countP (·.grants d) = 0 := by
      intro d
      unfold Sending.bringsTo
      split <;> simp [hnone]
    simp [Sending.tokens, Orientation.total, hzero, hgrant]

theorem mem_siblings_ne {o d : Orientation} (h : d ≠ o) : d ∈ o.siblings := by simpa using h

variable {b : RingBoard} {o : Orientation}

theorem quiet_sendOwn (h : b.Ok o) {m : RingMsg} {rest : List RingMsg}
    (hnone : b.sending = none) (hout : b.outbox = m :: rest) :
    b.Quiet o ({ b with outbox := rest }.startSending o m true) where
  ok :=
    { h with
      outboxAway := fun d hd => h.outboxAway d (hout ▸ List.mem_cons_of_mem _ hd)
      leftAway := by
        intro s hs
        cases hs
        simp
      outboxRefresh := fun m' hm' => h.outboxRefresh m' (hout ▸ List.mem_cons_of_mem _ hm')
      sendingRefresh := by
        intro s hs hrefresh
        cases hs
        exact ⟨rfl, h.outboxRefresh m (hout ▸ List.mem_cons_self) hrefresh⟩ }
  keeps := by
    have htokens := tokens_startSending (o := o) (m := m) true fun d hd =>
      h.outboxAway d (by rw [hout, hd]; exact List.mem_cons_self)
    simp only [Keeps, tokens, startSending, hnone, hout, List.countP_cons, Option.map_some,
      Option.map_none, Option.getD_some, Option.getD_none, htokens]
    omega
  table := rfl
  inbox := rfl
  transit d hd := by
    simp [transit, startSending, broadcasts, Sending.bringsTo, mem_siblings_ne hd, hnone, hout]
  inside := rfl

theorem quiet_sendOther (h : b.Ok o) {m : RingMsg} (hnone : b.sending = none)
    (hm : m ∈ b.others) :
    b.Quiet o ({ b with others := b.others.erase m }.startSending o m false) where
  ok :=
    { h with
      othersAway := fun d hd => h.othersAway d (List.mem_of_mem_erase hd)
      leftAway := by
        intro s hs
        cases hs
        simp
      othersPlain := fun m' hm' => h.othersPlain m' (List.mem_of_mem_erase hm')
      sendingRefresh := by
        intro s hs hrefresh
        cases hs
        exact absurd (h.othersPlain m hm) hrefresh }
  keeps := by
    have htokens := tokens_startSending (o := o) (m := m) false fun d hd =>
      h.othersAway d (hd ▸ hm)
    have herase := List.countP_erase RingMsg.isGrant b.others m
    have hle : (if m.isGrant then 1 else 0) ≤ b.others.countP RingMsg.isGrant := by
      split
      · next hg => exact List.countP_pos_iff.mpr ⟨m, hm, hg⟩
      · exact Nat.zero_le _
    simp only [hm, true_and] at herase
    simp only [Keeps, tokens, startSending, hnone, Option.map_some, Option.map_none,
      Option.getD_some, Option.getD_none, htokens, herase]
    omega
  table := rfl
  inbox := rfl
  transit d hd := by
    simp [transit, startSending, broadcasts, Sending.bringsTo, mem_siblings_ne hd, hnone,
      refreshes_cons_plain (h.othersPlain m hm)]
  inside := rfl

theorem Quiet.trans {b₁ b₂ b₃ : RingBoard} (first : b₁.Quiet o b₂) (second : b₂.Quiet o b₃) :
    b₁.Quiet o b₃ where
  ok := second.ok
  keeps := by
    have h₁ := first.keeps
    have h₂ := second.keeps
    simp only [Keeps] at h₁ h₂ ⊢
    omega
  table := second.table.trans first.table
  inbox := second.inbox.trans first.inbox
  transit d hd := (second.transit d hd).trans (first.transit d hd)
  inside := second.inside.trans first.inside

theorem quiet_routing (h : b.Ok o) {routing : Routing}
    (htable : routing.routingTable = b.table) : b.Quiet o { b with routing := routing } where
  ok := { h with }
  keeps := rfl
  table := htable
  inbox := rfl
  transit _ _ := rfl
  inside := rfl

theorem away_of_sent {sent : List SyncMsg} (h : b.Ok o) (away : b.sync.SendsAway sent)
    {d : Orientation} (hd : .sync (.tokenGrant .routing d) ∈ sent.map RingMsg.sync) : d ≠ o := by
  rw [← h.orientation]
  refine away .routing d ?_
  simpa using hd

theorem quiet_request (h : b.Ok o) (csId : ComponentId) : b.Quiet o (b.request csId) where
  ok :=
    { h with
      orientation := (b.sync.requestCriticalSection_identity csId).1.trans h.orientation
      first := (b.sync.requestCriticalSection_identity csId).2.2.trans h.first
      inside_iff := by
        rw [inside, request, Sync.requestCriticalSection_isInside]
        exact h.inside_iff
      othersAway := by
        intro d hd
        rcases List.mem_append.mp hd with hd | hd
        · exact h.othersAway d hd
        · exact away_of_sent h (Sync.requestCriticalSection_away h.first csId) hd
      outboxRefresh := by
        intro m hm hrefresh
        rw [inside, request, Sync.requestCriticalSection_isInside]
        exact h.outboxRefresh m hm hrefresh
      othersPlain := by
        intro m hm
        rcases List.mem_append.mp hm with hm | hm
        · exact h.othersPlain m hm
        · obtain ⟨msg, -, rfl⟩ := List.mem_map.mp hm
          rfl
      sendingRefresh := by
        intro s hs hrefresh
        rw [inside, request, Sync.requestCriticalSection_isInside]
        exact h.sendingRefresh s hs hrefresh }
  keeps := by
    have hbalance := Sync.requestCriticalSection_balanced b.sync csId .routing
    simp only [Sync.Balanced] at hbalance
    simp only [Keeps, tokens, request, List.countP_append, countP_sync_isGrant]
    omega
  table := rfl
  inbox := rfl
  transit _ _ := rfl
  inside := by
    rw [inside, request, Sync.requestCriticalSection_isInside]
    rfl

theorem quiet_queuePeer (h : b.Ok o) {stored : Routing × Bool}
    (htable : stored.1.routingTable = b.table) : b.Quiet o (b.queuePeer stored) := by
  have hrouting := quiet_routing h htable
  unfold queuePeer
  dsimp only
  split
  · exact hrouting.trans (quiet_request hrouting.ok .routing)
  · exact hrouting

theorem quiet_tick (h : b.Ok o) (dtMs : BitVec 32) : b.Quiet o (b.tick dtMs) := by
  obtain ⟨htable, hevents⟩ := rtOnTick_table b.table b.routing.role dtMs
  have hmsgs : ∀ m ∈ (RtAction.performAll b.table (rtOnTick b.routing.role dtMs).2).2.filterMap
      (RtOutput.ringMsg (b.sync.isInside .routing)), ∃ event, m = .routing event := by
    intro m hm
    obtain ⟨output, houtput, hmsg⟩ := List.mem_filterMap.mp hm
    obtain ⟨event, rfl⟩ := hevents output houtput
    exact ⟨event, (Option.some.inj hmsg).symm⟩
  have hgrants : ((RtAction.performAll b.table (rtOnTick b.routing.role dtMs).2).2.filterMap
      (RtOutput.ringMsg (b.sync.isInside .routing))).countP RingMsg.isGrant = 0 := by
    refine List.countP_eq_zero.mpr fun m hm => ?_
    obtain ⟨event, rfl⟩ := hmsgs m hm
    simp [RingMsg.isGrant]
  exact
    { ok :=
        { h with
          othersAway := by
            intro d hd
            rcases List.mem_append.mp hd with hd | hd
            · exact h.othersAway d hd
            · obtain ⟨event, hevent⟩ := hmsgs _ hd
              cases hevent
          othersPlain := by
            intro m hm
            rcases List.mem_append.mp hm with hm | hm
            · exact h.othersPlain m hm
            · obtain ⟨event, rfl⟩ := hmsgs m hm
              rfl }
      keeps := by
        simp only [Keeps, tokens, tick, List.countP_append, hgrants]
        rfl
      table := htable
      inbox := rfl
      transit := fun _ _ => rfl
      inside := rfl }

/-! ## Handling a message -/

theorem idle_spec (h : b.idle = true) :
    b.outbox = [] ∧ b.task = none ∧ ∀ s, b.sending = some s → s.own = false := by
  simp only [idle, flushed, Bool.and_eq_true, List.isEmpty_iff, Option.isNone_iff_eq_none] at h
  obtain ⟨⟨hout, hsending⟩, htask⟩ := h
  refine ⟨hout, htask, fun s hs => ?_⟩
  rw [hs] at hsending
  simpa using hsending

theorem Ok.not_inside (h : b.Ok o) (hidle : b.idle = true) : b.inside = false := by
  rw [h.inside_iff, (idle_spec hidle).2.1]
  rfl

theorem Ok.sending_plain (h : b.Ok o) (hown : ∀ s, b.sending = some s → s.own = false)
    {s : Sending} (hs : b.sending = some s) : s.msg.refresh = none := by
  by_contra hne
  have hs' := (h.sendingRefresh s hs hne).1
  rw [hown s hs] at hs'
  cases hs'

theorem fresh_tail {m : RingMsg} {rest : List RingMsg} (h : b.Ok o)
    (hin : b.inbox = m :: rest) :
    rest.Pairwise fun m m' => m.grants o = true → m'.refresh = none := by
  have hfresh := h.fresh
  rw [hin] at hfresh
  exact (List.pairwise_cons.mp hfresh).2

/-- The board after a message of the lock, before the callback runs. -/
theorem ok_turn (h : b.Ok o) (hidle : b.idle = true) {msg : SyncMsg} {rest : List RingMsg}
    (hin : b.inbox = .sync msg :: rest) :
    Ok o { b with
      inbox := rest
      sync := (b.sync.onSiblingMessage msg).sync
      outbox := (b.sync.onSiblingMessage msg).sent.map .sync
      task := (b.sync.onSiblingMessage msg).callback } where
  orientation := (b.sync.onSiblingMessage_identity msg).1.trans h.orientation
  first := (b.sync.onSiblingMessage_identity msg).2.2.trans h.first
  inside_iff := by
    have hout : b.sync.isInside .routing = false := h.not_inside hidle
    rw [inside, Sync.onSiblingMessage_isInside, hout, Bool.false_or]
  outboxAway _ hd := away_of_sent h (Sync.onSiblingMessage_away h.first msg) hd
  othersAway := h.othersAway
  leftAway := h.leftAway
  outboxRefresh := by
    intro m hm hrefresh
    obtain ⟨msg', -, rfl⟩ := List.mem_map.mp hm
    exact absurd rfl hrefresh
  othersPlain := h.othersPlain
  sendingRefresh s hs hrefresh :=
    absurd (h.sending_plain (idle_spec hidle).2.2 hs) hrefresh
  fresh := fresh_tail h hin

/-- A grant in front of the inbox is held or passed on. -/
theorem keeps_turn (h : b.Ok o) (hidle : b.idle = true) {msg : SyncMsg} {rest : List RingMsg}
    (hin : b.inbox = .sync msg :: rest)
    (out : msg = .tokenGrant .routing o → b.sync.isLeader = true →
      b.sync.leader.isTokenOut .routing = true) :
    b.Keeps o { b with
      inbox := rest
      sync := (b.sync.onSiblingMessage msg).sync
      outbox := (b.sync.onSiblingMessage msg).sent.map .sync
      task := (b.sync.onSiblingMessage msg).callback } := by
  have hout : b.sync.isInside .routing = false := h.not_inside hidle
  have hbalance := Sync.onSiblingMessage_balanced b.sync msg .routing (fun _ => hout)
    (fun hm => out (h.orientation ▸ hm))
  have htaken : b.sync.taken .routing msg =
      if RingMsg.grants o (.sync msg) = true then 1 else 0 := by
    simp [Sync.taken, RingMsg.grants, h.orientation]
  simp only [Sync.Balanced, htaken] at hbalance
  simp only [Keeps, tokens, hin, (idle_spec hidle).1, List.countP_cons, List.countP_nil,
    countP_sync_isGrant]
  omega

theorem quiet_pop (h : b.Ok o) {m : RingMsg} {rest : List RingMsg} (hin : b.inbox = m :: rest)
    (hplain : m.refresh = none) (hgrant : m.grants o = false) :
    b.Quiet o { b with inbox := rest } where
  ok := { h with fresh := fresh_tail h hin }
  keeps := by
    simp only [Keeps, tokens, hin, List.countP_cons, hgrant]
    rfl
  table := rfl
  inbox := by rw [hin, refreshes_cons_plain hplain]
  transit _ _ := rfl
  inside := rfl

/-- The siblings task asks for the lock. -/
theorem quiet_requestOwn (h : b.Ok o) (hout : b.outbox = []) (csId : ComponentId) :
    b.Quiet o { b with
      sync := (b.sync.requestCriticalSection csId).1
      outbox := (b.sync.requestCriticalSection csId).2.map .sync } where
  ok :=
    { h with
      orientation := (b.sync.requestCriticalSection_identity csId).1.trans h.orientation
      first := (b.sync.requestCriticalSection_identity csId).2.2.trans h.first
      inside_iff := by
        rw [inside, Sync.requestCriticalSection_isInside]
        exact h.inside_iff
      outboxAway := fun _ hd =>
        away_of_sent h (Sync.requestCriticalSection_away h.first csId) hd
      outboxRefresh := by
        intro m hm hrefresh
        obtain ⟨msg, -, rfl⟩ := List.mem_map.mp hm
        exact absurd rfl hrefresh
      sendingRefresh := by
        intro s hs hrefresh
        rw [inside, Sync.requestCriticalSection_isInside]
        exact h.sendingRefresh s hs hrefresh }
  keeps := by
    have hbalance := Sync.requestCriticalSection_balanced b.sync csId .routing
    simp only [Sync.Balanced] at hbalance
    simp only [Keeps, tokens, hout, List.countP_nil, countP_sync_isGrant]
    omega
  table := rfl
  inbox := rfl
  transit d _ := by simp [transit, hout]
  inside := by
    rw [inside, Sync.requestCriticalSection_isInside]
    rfl

theorem onSiblingMessage_table (board : Routing) (event : RtSiblEvent) (len : Nat) :
    (onSiblingMessage board event len).1.routingTable = board.routingTable := by
  unfold onSiblingMessage
  split
  · rfl
  · split <;> rfl

theorem quiet_handleRouting (h : b.Ok o) (hidle : b.idle = true) {event : RtSiblEvent}
    {rest : List RingMsg} (hin : b.inbox = .routing event :: rest) :
    b.Quiet o ({ b with inbox := rest }.handleRouting event) := by
  have popped := quiet_pop h hin rfl rfl
  have stored := popped.trans (quiet_routing popped.ok
    (onSiblingMessage_table b.routing event sizeofRtSiblEvent))
  unfold handleRouting
  dsimp only
  split
  · exact stored.trans (quiet_requestOwn stored.ok (idle_spec hidle).1 .routing)
  · exact stored

/-- A message of the lock that does not start the callback of the routing module. -/
theorem quiet_handleSync (h : b.Ok o) (hidle : b.idle = true) {msg : SyncMsg}
    {rest : List RingMsg} (hin : b.inbox = .sync msg :: rest)
    (out : msg = .tokenGrant .routing o → b.sync.isLeader = true →
      b.sync.leader.isTokenOut .routing = true)
    (hcall : (b.sync.onSiblingMessage msg).callback ≠ some .routing) :
    b.Quiet o ({ b with inbox := rest }.handleSync msg) := by
  have hturn : { b with inbox := rest }.handleSync msg =
      { b with
        inbox := rest
        sync := (b.sync.onSiblingMessage msg).sync
        outbox := (b.sync.onSiblingMessage msg).sent.map .sync
        task := (b.sync.onSiblingMessage msg).callback } := by
    simp [handleSync, hcall]
  rw [hturn]
  exact
    { ok := ok_turn h hidle hin
      keeps := keeps_turn h hidle hin out
      table := rfl
      inbox := by rw [hin, refreshes_cons_plain rfl]
      transit := fun d _ => by simp [transit, (idle_spec hidle).1]
      inside := by
        rw [inside, Sync.onSiblingMessage_isInside]
        simp [hcall, inside] }

end RingBoard

end I4A
