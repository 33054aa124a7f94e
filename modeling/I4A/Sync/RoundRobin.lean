import I4A.Core.Rounds
import I4A.Sync.TokenRing

/-! # Whose turn it is

The boards that a component's token visits, in the order of the visits. Rounds
start at the north board, every follower passes the token to the next board and
the round ends at the leader, whether requests come in late, together or not at
all. So the visits go round the ring without leaving out a board, over the ends
of the rounds as well as inside one.
-/

namespace I4A

/-- The board that the label brings the component's token to. -/
def RingLabel.visited (csId : ComponentId) : RingLabel → Option Orientation
  | .deliver p => if p.live csId then some p.dst else none
  | .request _ _ => none
  | .leave _ => none

/-- The boards that the component's token visits in a schedule. -/
def tokenVisits (csId : ComponentId) (schedule : List RingLabel) : List Orientation :=
  schedule.filterMap (RingLabel.visited csId)

theorem next_isRound : IsRound Orientation.next Orientation.nDevices := by
  intro a b
  cases a <;> cases b <;> decide

namespace Sync

variable {self : Sync} {csId cs : ComponentId} {d : Orientation}

theorem requestCriticalSection_grants (hfirst : self.leader.firstDeviceToGetToken = .north)
    (h : .tokenGrant cs d ∈ (self.requestCriticalSection csId).2) :
    cs = csId ∧ d = .north ∧ self.isLeader = true ∧ self.leader.isTokenOut csId = false := by
  unfold requestCriticalSection leaderRequest at h
  split at h
  · next hl =>
    split at h
    · split at h <;> simp at h
    · next hout =>
      simp only [issueNewToken, List.mem_singleton, SyncMsg.tokenGrant.injEq] at h
      exact ⟨h.1, h.2.trans hfirst, hl, by simpa using hout⟩
  · simp [followerRequest] at h

/-- A release hands the token to the next board; the leader's next board is the first. -/
theorem release_grants (hfirst : self.leader.firstDeviceToGetToken = .north)
    (h : .tokenGrant cs d ∈ (self.release csId).2) :
    cs = csId ∧ d = self.orientation.next := by
  unfold release leaderRelease at h
  split at h
  · next hl =>
    have hcenter : self.orientation = .center := by simpa [isLeader] using hl
    split at h
    · simp only [issueNewToken, setRequestedTokens, List.mem_singleton,
        SyncMsg.tokenGrant.injEq] at h
      refine ⟨h.1, ?_⟩
      rw [h.2, hfirst, hcenter]
      rfl
    · simp at h
  · simp only [followerRelease, List.mem_singleton, SyncMsg.tokenGrant.injEq] at h
    exact h

theorem requestCriticalSection_isTokenOut (self : Sync) (csId : ComponentId)
    (h : self.leader.isTokenOut cs = true) :
    (self.requestCriticalSection csId).1.leader.isTokenOut cs = true := by
  unfold requestCriticalSection leaderRequest followerRequest
  split
  · split
    · split
      · exact h
      · exact h
    · by_cases hc : cs = csId
      · subst hc
        simp [issueNewToken, setTokenOut]
      · simpa [issueNewToken, setTokenOut, hc] using h
  · exact h

theorem release_isTokenOut (self : Sync) (h : cs ≠ csId ∨ self.isLeader = false) :
    (self.release csId).1.leader.isTokenOut cs = self.leader.isTokenOut cs := by
  unfold release leaderRelease followerRelease
  split
  · next hl =>
    have hc : cs ≠ csId := h.resolve_right (by simp [hl])
    split
    · simp [issueNewToken, setTokenOut, setRequestedTokens, hc]
    · simp [setTokenOut, hc]
  · rfl

end Sync

namespace TokenRing

variable {cs : ComponentId} {t u : TokenRing} {e : Orientation}

/-- It is the board's turn: wherever the component's token is, it comes to this board next. -/
structure OnTurn (csId : ComponentId) (e : Orientation) (t : TokenRing) : Prop where
  home : t.isTokenOut csId = false → e = .north
  flight : ∀ p ∈ t.packets, p.live csId = true → p.dst = e
  inside : ∀ o, (t.boards o).isInside csId = true → o.next = e

/-! ## The one token -/

/-- With the token in flight nobody is inside and no other grant is on its way. -/
theorem Lock.alone_flight (h : Lock cs t) {p : SyncPacket} (hp : p ∈ t.packets)
    (hlive : p.live cs = true) :
    t.isTokenOut cs = true ∧ (∀ o, (t.boards o).isInside cs = false) ∧
      ∀ q ∈ t.packets.erase p, q.live cs = false := by
  have hpos : 0 < t.packets.countP (SyncPacket.live cs) := List.countP_pos_iff.mpr ⟨p, hp, hlive⟩
  have hrest := List.countP_erase (SyncPacket.live cs) t.packets p
  rw [if_pos ⟨hp, hlive⟩] at hrest
  have hbal := h.balanced
  unfold liveTokens at hbal
  have hout : t.isTokenOut cs = true := by
    by_contra hno
    rw [if_neg hno] at hbal
    omega
  rw [if_pos hout] at hbal
  refine ⟨hout, fun o => ?_, fun q hq => ?_⟩
  · have hheld := Orientation.le_total (fun o => (t.boards o).held cs) o
    by_contra hin
    simp only [Sync.held, if_pos (Bool.not_eq_false _ ▸ hin)] at hheld hbal
    omega
  · by_contra hl
    have hpos' : 0 < (t.packets.erase p).countP (SyncPacket.live cs) :=
      List.countP_pos_iff.mpr ⟨q, hq, by simpa using hl⟩
    omega

theorem Lock.alone_inside (h : Lock cs t) {b : Orientation}
    (hb : (t.boards b).isInside cs = true) :
    t.isTokenOut cs = true ∧ ∀ q ∈ t.packets, q.live cs = false := by
  refine ⟨?_, fun q hq => ?_⟩
  · by_contra hno
    have hheld := Orientation.le_total (fun o => (t.boards o).held cs) b
    have hbal := h.balanced
    unfold liveTokens at hbal
    rw [if_neg hno] at hbal
    simp only [Sync.held, hb, if_true] at hheld hbal
    omega
  · by_contra hl
    have hin := (h.alone_flight hq (by simpa using hl)).2.1 b
    rw [hin] at hb
    cases hb

/-! ## One move -/

theorem live_sent {src : Orientation} {sent : List SyncMsg} {p : SyncPacket}
    (hp : p ∈ syncBroadcast src sent) (hlive : p.live cs = true) :
    .tokenGrant cs p.dst ∈ sent := by
  have hmsg : p.msg = .tokenGrant cs p.dst := by simpa [SyncPacket.live] using hlive
  exact hmsg ▸ (mem_syncBroadcast.mp hp).1

theorem isTokenOut_move {b : Orientation} {s : Sync}
    (hboards : u.boards = Function.update t.boards b s)
    (keeps : b = .center → (t.boards .center).leader.isTokenOut cs = true →
      s.leader.isTokenOut cs = true) (h : t.isTokenOut cs = true) : u.isTokenOut cs = true := by
  unfold isTokenOut
  rw [hboards]
  by_cases hb : b = .center
  · subst hb
    rw [Function.update_self]
    exact keeps rfl h
  · rw [Function.update_of_ne (Ne.symm hb)]
    exact h

/-- A move that leaves the flag up, lets nobody in and sends grants only to the board whose
turn it is leaves the turn alone. -/
theorem OnTurn.kept (h : OnTurn cs e t) {rest : List SyncPacket} {b : Orientation}
    {sent : List SyncMsg} (hpackets : u.packets = rest ++ syncBroadcast b sent)
    (hrest : rest ⊆ t.packets) (sends : ∀ d, .tokenGrant cs d ∈ sent → d = e)
    (out : t.isTokenOut cs = true → u.isTokenOut cs = true)
    (inside : ∀ o, (u.boards o).isInside cs = true → (t.boards o).isInside cs = true) :
    OnTurn cs e u where
  home hno := h.home <| by
    by_contra hout
    rw [out (by simpa using hout)] at hno
    cases hno
  flight p hp hlive := by
    rw [hpackets, List.mem_append] at hp
    rcases hp with hp | hp
    · exact h.flight p (hrest hp) hlive
    · exact sends p.dst (live_sent hp hlive)
  inside o ho := h.inside o (inside o ho)

/-- The board that has the token releases it: the turn goes to the next board. -/
theorem OnTurn.released (s : Sync) (rest : List SyncPacket) {b : Orientation}
    (hor : s.orientation = b) (hfirst : s.leader.firstDeviceToGetToken = .north)
    (hlead : b ≠ .center → t.isTokenOut cs = true)
    (hboards : u.boards = Function.update t.boards b (s.release cs).1)
    (hpackets : u.packets = rest ++ syncBroadcast b (s.release cs).2)
    (hrest : ∀ q ∈ rest, q.live cs = false)
    (inside : ∀ o, (u.boards o).isInside cs = false) : OnTurn cs b.next u where
  home hno := by
    by_cases hb : b = .center
    · rw [hb]
      rfl
    · have hout : u.isTokenOut cs = true :=
        isTokenOut_move hboards (fun hc => absurd hc hb) (hlead hb)
      rw [hout] at hno
      cases hno
  flight p hp hlive := by
    rw [hpackets, List.mem_append] at hp
    rcases hp with hp | hp
    · rw [hrest p hp] at hlive
      cases hlive
    · rw [← hor]
      exact (Sync.release_grants hfirst (live_sent hp hlive)).2
  inside o ho := by
    rw [inside o] at ho
    cases ho

/-! ## Each label -/

theorem OnTurn.request_sends (h : OnTurn cs e t) (hl : Lock cs t) {b d : Orientation}
    {c : ComponentId} (hd : .tokenGrant cs d ∈ ((t.boards b).requestCriticalSection c).2) :
    d = e := by
  obtain ⟨hc, hnorth, hlead, hout⟩ := Sync.requestCriticalSection_grants (hl.first b) hd
  have hb : b = .center := by simpa [hl.isLeader] using hlead
  subst hc hb
  rw [hnorth, h.home hout]

theorem OnTurn.request (h : OnTurn cs e t) (hl : Lock cs t) (b : Orientation) (c : ComponentId) :
    OnTurn cs e (t.request b c) := by
  refine h.kept rfl (List.Subset.refl _) (fun d hd => h.request_sends hl hd) (fun hout => ?_)
    (fun o ho => ?_)
  · refine isTokenOut_move rfl (fun hb hup => ?_) hout
    subst hb
    exact Sync.requestCriticalSection_isTokenOut _ c hup
  · by_cases hob : o = b
    · subst hob
      simpa [TokenRing.request] using ho
    · simpa [TokenRing.request, hob] using ho

theorem OnTurn.leave (h : OnTurn cs e t) (hl : Lock cs t) {b : Orientation} {c : ComponentId}
    (htask : t.task b = some c) : OnTurn cs e (t.leave b c) := by
  by_cases hc : cs = c
  · subst hc
    have hin : (t.boards b).isInside cs = true := by simp [hl.inside, htask]
    obtain ⟨hout, hflight⟩ := hl.alone_inside hin
    rw [← h.inside b hin]
    refine OnTurn.released ((t.boards b).setInside cs false) t.packets (hl.orientation b)
      (hl.first b) (fun _ => hout) rfl rfl hflight fun o => ?_
    by_cases ho : o = b
    · subst ho
      simp [TokenRing.leave, Sync.leaveCriticalSection, Sync.setInside]
    · by_contra hno
      have hother : (t.boards o).isInside cs = true := by
        simpa [TokenRing.leave, ho] using hno
      exact ho (hl.unique hother hin)
  · refine h.kept rfl (List.Subset.refl _) (fun d hd => ?_) (fun hout => ?_) (fun o ho => ?_)
    · have hfirst : ((t.boards b).setInside c false).leader.firstDeviceToGetToken = .north :=
        hl.first b
      exact absurd (Sync.release_grants hfirst hd).1 hc
    · refine isTokenOut_move rfl (fun hb hup => ?_) hout
      rw [Sync.leaveCriticalSection, Sync.release_isTokenOut _ (.inl hc)]
      subst hb
      exact hup
    · by_cases hob : o = b
      · subst hob
        simpa [TokenRing.leave, Sync.leaveCriticalSection, Sync.setInside, hc] using ho
      · simpa [TokenRing.leave, hob] using ho

theorem OnTurn.deliver_kept (h : OnTurn cs e t) {p : SyncPacket}
    (sends : ∀ d, .tokenGrant cs d ∈ ((t.boards p.dst).onSiblingMessage p.msg).sent → d = e)
    (out : (t.boards p.dst).leader.isTokenOut cs = true →
      ((t.boards p.dst).onSiblingMessage p.msg).sync.leader.isTokenOut cs = true)
    (inside : ((t.boards p.dst).onSiblingMessage p.msg).sync.isInside cs =
      (t.boards p.dst).isInside cs) : OnTurn cs e (t.deliver p) := by
  refine h.kept rfl List.erase_subset sends (fun hout => ?_) (fun o ho => ?_)
  · exact isTokenOut_move rfl (fun hb hup => out (by rw [hb]; exact hup)) hout
  · by_cases hob : o = p.dst
    · subst hob
      simpa [TokenRing.deliver, inside] using ho
    · simpa [TokenRing.deliver, hob] using ho

theorem OnTurn.deliver_other (h : OnTurn cs e t) (hl : Lock cs t) {p : SyncPacket}
    (hlive : p.live cs = false) : OnTurn cs e (t.deliver p) := by
  obtain ⟨src, dst, msg⟩ := p
  cases msg with
  | tokenRequest c =>
      rcases Sync.onTokenRequest_cases (t.boards dst) c with hturn | hturn
      · refine h.deliver_kept (fun d hd => ?_) (fun hup => ?_) ?_
        · rw [Sync.onSiblingMessage, hturn] at hd
          exact h.request_sends hl hd
        · rw [Sync.onSiblingMessage, hturn]
          exact Sync.requestCriticalSection_isTokenOut _ c hup
        · rw [Sync.onSiblingMessage, hturn, Sync.requestCriticalSection_isInside]
      · refine h.deliver_kept ?_ ?_ ?_ <;> simp [Sync.onSiblingMessage, hturn]
  | tokenGrant c d =>
      have hother : d = (t.boards dst).orientation → cs ≠ c := by
        rintro hd rfl
        simp [SyncPacket.live, hd, hl.orientation dst] at hlive
      rcases Sync.onTokenGrant_cases (t.boards dst) c d with ⟨-, hturn⟩ | ⟨hd, hturn⟩ |
        ⟨hd, hturn⟩
      · refine h.deliver_kept ?_ ?_ ?_ <;> simp [Sync.onSiblingMessage, hturn]
      · refine h.deliver_kept ?_ ?_ ?_ <;>
          simp [Sync.onSiblingMessage, hturn, Sync.setInside, hother hd]
      · refine h.deliver_kept (fun d' hd' => ?_) (fun hup => ?_) ?_
        · rw [Sync.onSiblingMessage, hturn] at hd'
          exact absurd (Sync.release_grants (hl.first dst) hd').1 (hother hd)
        · rw [Sync.onSiblingMessage, hturn]
          rw [Sync.release_isTokenOut _ (.inl (hother hd))]
          exact hup
        · rw [Sync.onSiblingMessage, hturn, Sync.release_isInside]

/-- The token comes to the board whose turn it is, and the turn goes to the next one. -/
theorem OnTurn.deliver_live (h : OnTurn cs e t) (hl : Lock cs t) {p : SyncPacket}
    (hp : p ∈ t.packets) (hlive : p.live cs = true) :
    p.dst = e ∧ OnTurn cs e.next (t.deliver p) := by
  have hdst : p.dst = e := h.flight p hp hlive
  refine ⟨hdst, ?_⟩
  subst hdst
  obtain ⟨hout, hidle, hrest⟩ := hl.alone_flight hp hlive
  have hmsg : p.msg = .tokenGrant cs p.dst := by simpa [SyncPacket.live] using hlive
  have hor := hl.orientation p.dst
  rcases Sync.onTokenGrant_cases (t.boards p.dst) cs p.dst with ⟨hd, -⟩ | ⟨-, hturn⟩ |
    ⟨-, hturn⟩
  · exact absurd hor.symm hd
  · -- the board enters the callback
    have hboards : (t.deliver p).boards =
        Function.update t.boards p.dst ((t.boards p.dst).setInside cs true) := by
      rw [TokenRing.deliver, hmsg, Sync.onSiblingMessage, hturn]
    have hpackets : (t.deliver p).packets = t.packets.erase p := by
      rw [TokenRing.deliver, hmsg, Sync.onSiblingMessage, hturn]
      simp [syncBroadcast]
    refine ⟨fun hno => ?_, fun q hq hq' => ?_, fun o ho => ?_⟩
    · have hup : (t.deliver p).isTokenOut cs = true :=
        isTokenOut_move hboards (fun hb hup => by rw [hb]; exact hup) hout
      rw [hup] at hno
      cases hno
    · rw [hpackets] at hq
      rw [hrest q hq] at hq'
      cases hq'
    · by_cases hob : o = p.dst
      · rw [hob]
      · rw [hboards, Function.update_of_ne hob, hidle o] at ho
        cases ho
  · -- no callback: the token goes on at once
    refine OnTurn.released (t.boards p.dst) (t.packets.erase p) hor (hl.first p.dst)
      (fun _ => hout) ?_ ?_ hrest fun o => ?_
    · rw [TokenRing.deliver, hmsg, Sync.onSiblingMessage, hturn]
    · rw [TokenRing.deliver, hmsg, Sync.onSiblingMessage, hturn]
    · by_cases hob : o = p.dst
      · subst hob
        simp [TokenRing.deliver, hmsg, Sync.onSiblingMessage, hturn, hidle]
      · simp [TokenRing.deliver, hob, hidle o]

/-- The board after the one that the label visits, or the same as before. -/
theorem OnTurn.step (h : OnTurn cs e t) (hl : Lock cs t) {l : RingLabel}
    (hs : tokenRing.step t l = some u) :
    (l.visited cs = none ∧ OnTurn cs e u) ∨ (l.visited cs = some e ∧ OnTurn cs e.next u) := by
  cases l with
  | request b c =>
      cases hs
      exact .inl ⟨rfl, h.request hl b c⟩
  | deliver p =>
      simp only [tokenRing, TokenRing.step] at hs
      split at hs
      · next hp =>
        cases hs
        by_cases hlive : p.live cs = true
        · obtain ⟨hdst, hturn⟩ := h.deliver_live hl hp.1 hlive
          exact .inr ⟨by simp [RingLabel.visited, hlive, hdst], hturn⟩
        · rw [Bool.not_eq_true] at hlive
          exact .inl ⟨by simp [RingLabel.visited, hlive], h.deliver_other hl hlive⟩
      · cases hs
  | leave b =>
      simp only [tokenRing, TokenRing.step, Option.map_eq_some_iff] at hs
      obtain ⟨c, htask, rfl⟩ := hs
      exact .inl ⟨rfl, h.leave hl htask⟩

theorem start_onTurn (registered : Orientation → ComponentId → Bool) (cs : ComponentId) :
    OnTurn cs .north (start registered) where
  home _ := rfl
  flight _ hp := by cases hp
  inside _ ho := by cases ho

/-- The visits of a schedule go round, and then it is the turn of the board after the last. -/
theorem onTurn_run {registered : Orientation → ComponentId → Bool} {ls : List RingLabel}
    {t : TokenRing} (run : tokenRing.run (start registered) ls = some t) (cs : ComponentId) :
    GoesRound Orientation.next .north (tokenVisits cs ls) ∧
      OnTurn cs (Orientation.next^[(tokenVisits cs ls).length] .north) t := by
  refine Machine.run_induction
    (P := fun ls t => GoesRound Orientation.next .north (tokenVisits cs ls) ∧
      OnTurn cs (Orientation.next^[(tokenVisits cs ls).length] .north) t)
    ⟨GoesRound.nil _, start_onTurn registered cs⟩ (fun ls t l u hrun ih hs => ?_) run
  obtain ⟨hround, hturn⟩ := ih
  have hl : Lock cs t := Lock.run (Machine.reaches_of_run hrun) cs
  rcases hturn.step hl hs with ⟨hv, hu⟩ | ⟨hv, hu⟩
  · have hsame : tokenVisits cs (ls ++ [l]) = tokenVisits cs ls := by simp [tokenVisits, hv]
    rw [hsame]
    exact ⟨hround, hu⟩
  · have hmore : tokenVisits cs (ls ++ [l]) = tokenVisits cs ls ++
        [Orientation.next^[(tokenVisits cs ls).length] .north] := by
      simp [tokenVisits, hv]
    rw [hmore]
    refine ⟨hround.concat, ?_⟩
    rw [List.length_append, List.length_singleton, Function.iterate_succ_apply']
    exact hu

end TokenRing

/-- In every schedule the component's token visits the boards in the order of the ring: any
five visits in a row are to the five boards, and no board ever has more than one visit more
than another. -/
theorem tokenRing_roundRobin (registered : Orientation → ComponentId → Bool)
    {ls : List RingLabel} {t : TokenRing}
    (run : tokenRing.run (TokenRing.start registered) ls = some t) (csId : ComponentId) :
    GoesRound Orientation.next .north (tokenVisits csId ls) ∧
      (∀ first window rest, tokenVisits csId ls = first ++ window ++ rest →
        window.length = Orientation.nDevices → ∀ b, window.count b = 1) ∧
      ∀ a b, (tokenVisits csId ls).count a ≤ (tokenVisits csId ls).count b + 1 := by
  have hround := (TokenRing.onTurn_run run csId).1
  refine ⟨hround, fun first window rest heq hlen b => ?_, fun a b => ?_⟩
  · rw [heq] at hround
    exact hround.window next_isRound hlen b
  · have ha := hround.share next_isRound a
    have hb := hround.share next_isRound b
    omega

/-- The leader asks, south asks while the token goes round, and the token sets out again. -/
def busyRounds : List RingLabel :=
  [.request .center .routing, .deliver ⟨.center, .north, .tokenGrant .routing .north⟩,
    .leave .north, .request .south .routing,
    .deliver ⟨.north, .south, .tokenGrant .routing .south⟩, .leave .south,
    .deliver ⟨.south, .east, .tokenGrant .routing .east⟩, .leave .east,
    .deliver ⟨.east, .west, .tokenGrant .routing .west⟩, .leave .west,
    .deliver ⟨.south, .center, .tokenRequest .routing⟩,
    .deliver ⟨.west, .center, .tokenGrant .routing .center⟩, .leave .center,
    .deliver ⟨.center, .north, .tokenGrant .routing .north⟩]

theorem busyRounds_run :
    (tokenRing.run (TokenRing.start fun _ _ => true) busyRounds).isSome = true := by decide

/-- Its six visits are more than a round. -/
theorem tokenRing_roundRobin_busy :
    tokenVisits .routing busyRounds = [.north, .south, .east, .west, .center, .north] ∧
      GoesRound Orientation.next .north (tokenVisits .routing busyRounds) ∧
      (∀ b, [Orientation.south, .east, .west, .center, .north].count b = 1) ∧
      ∀ a b, (tokenVisits .routing busyRounds).count a ≤
        (tokenVisits .routing busyRounds).count b + 1 := by
  have visits : tokenVisits .routing busyRounds =
      [.north, .south, .east, .west, .center, .north] := by decide
  obtain ⟨hround, hwindow, hshare⟩ := tokenRing_roundRobin (fun _ _ => true)
    (Option.some_get busyRounds_run).symm .routing
  exact ⟨visits, hround, hwindow [.north] _ [] visits rfl, hshare⟩

end I4A
