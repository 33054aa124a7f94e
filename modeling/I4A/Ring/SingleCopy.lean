import I4A.Ring.Moves

/-! # One copy of the routing table

The five tables of a node behave as one. Refreshes only come from the board that
holds the token, so none can be overtaken by the grant that lets another board
enter.
-/

namespace I4A

open SharedRing

/-! ## Entering and leaving the critical section -/

namespace RingBoard

variable {b : RingBoard} {o : Orientation}

theorem entered {msg : SyncMsg} {rest : List RingMsg}
    (hcall : (b.sync.onSiblingMessage msg).callback = some .routing) :
    { b with inbox := rest }.handleSync msg =
      { b with
        inbox := rest
        sync := b.sync.setInside .routing true
        task := some .routing
        routing := (onCriticalSection b.routing).board
        outbox := (onCriticalSection b.routing).outputs.filterMap (RtOutput.ringMsg true) } := by
  obtain ⟨-, hturn⟩ := Sync.onSiblingMessage_callback hcall
  simp [handleSync, hturn, runCriticalSection, Sync.setInside]

theorem ringMsg_not_sync (inside : Bool) (outputs : List RtOutput) (msg : SyncMsg) :
    .sync msg ∉ outputs.filterMap (RtOutput.ringMsg inside) := by
  intro hmem
  obtain ⟨output, -, houtput⟩ := List.mem_filterMap.mp hmem
  cases output <;> cases inside <;> simp [RtOutput.ringMsg] at houtput

theorem ringMsg_no_grant (inside : Bool) (outputs : List RtOutput) :
    (outputs.filterMap (RtOutput.ringMsg inside)).countP RingMsg.isGrant = 0 := by
  refine List.countP_eq_zero.mpr fun m hm => ?_
  cases m with
  | sync msg => exact absurd hm (ringMsg_not_sync inside outputs msg)
  | sharedState component data => simp [RingMsg.isGrant]
  | routing event => simp [RingMsg.isGrant]

end RingBoard

namespace SharedRing

variable {t : SharedRing}

theorem SingleCopy.nobody_inside (h : t.SingleCopy) {o : Orientation} {rest : List RingMsg}
    (hidle : (t.boards o).idle = true)
    (hin : (t.boards o).inbox = .sync (.tokenGrant .routing o) :: rest) (c : Orientation) :
    (t.boards c).inside = false := by
  have htoken : 0 < (t.boards o).tokens o := by
    have hgrant : RingMsg.grants o (.sync (.tokenGrant .routing o)) = true := by
      simp [RingMsg.grants]
    simp only [RingBoard.tokens, hin, List.countP_cons, hgrant, if_true]
    omega
  by_contra hc
  have hc' : (t.boards c).inside = true := by simpa using hc
  have hco := h.unique htoken hc'
  subst hco
  rw [(h.ok c).not_inside hidle] at hc'
  cases hc'

/-- With nobody inside, a board has the last written table after the refreshes in its inbox. -/
theorem SingleCopy.settled (h : t.SingleCopy) (hnone : ∀ c, (t.boards c).inside = false)
    (o : Orientation) :
    settle (t.boards o).table (refreshes (t.boards o).inbox) = t.lastWritten := by
  have hseen := h.seen o o.next o.next_ne fun c hc => by
    rw [hnone c] at hc
    cases hc
  rw [(h.ok o.next).transit_plain (hnone o.next), List.append_nil] at hseen
  exact hseen

theorem refreshes_behind (h : t.SingleCopy) {o : Orientation} {rest : List RingMsg}
    (hin : (t.boards o).inbox = .sync (.tokenGrant .routing o) :: rest) :
    refreshes rest = [] := by
  have hfresh := (h.ok o).fresh
  rw [hin] at hfresh
  exact refreshes_eq_nil fun m hm =>
    (List.pairwise_cons.mp hfresh).1 m hm (by simp [RingMsg.grants])

/-- A board enters with the last written table. -/
theorem SingleCopy.table_at_entry (h : t.SingleCopy) {o : Orientation} {rest : List RingMsg}
    (hidle : (t.boards o).idle = true)
    (hin : (t.boards o).inbox = .sync (.tokenGrant .routing o) :: rest) :
    (t.boards o).table = t.lastWritten := by
  have hsettled := h.settled (h.nobody_inside hidle hin) o
  rw [hin, refreshes_cons_plain rfl, refreshes_behind h hin] at hsettled
  exact hsettled

theorem SingleCopy.out_of_grant (h : t.SingleCopy) {o : Orientation} {msg : SyncMsg}
    {rest : List RingMsg} (hin : (t.boards o).inbox = .sync msg :: rest)
    (hmsg : msg = .tokenGrant .routing o) (hl : (t.boards o).sync.isLeader = true) :
    (t.boards o).sync.leader.isTokenOut .routing = true := by
  subst hmsg
  have hcenter : o = .center := by simpa [Sync.isLeader, (h.ok o).orientation] using hl
  have htoken : 0 < (t.boards o).tokens o := by
    simp only [RingBoard.tokens, hin, List.countP_cons, RingMsg.grants, decide_true, if_true]
    omega
  have hout := (h.token_at htoken).1
  rwa [isTokenOut, ← hcenter] at hout

/-- The callback starts and runs. -/
theorem SingleCopy.enter (h : t.SingleCopy) {o : Orientation} {msg : SyncMsg}
    {rest : List RingMsg} (hidle : (t.boards o).idle = true)
    (hin : (t.boards o).inbox = .sync msg :: rest)
    (hcall : ((t.boards o).sync.onSiblingMessage msg).callback = some .routing) :
    (t.move o ({ t.boards o with inbox := rest }.handleSync msg)).SingleCopy := by
  have hok := h.ok o
  obtain ⟨hmsg, hturn⟩ := Sync.onSiblingMessage_callback hcall
  rw [hok.orientation] at hmsg
  subst hmsg
  have hnone := h.nobody_inside hidle hin
  have htable := h.table_at_entry hidle hin
  have hsettled := settle_criticalSection (t.boards o).routing
  have hown := (RingBoard.idle_spec hidle).2.2
  have hokTurn := RingBoard.ok_turn hok hidle hin
  have hkeepsTurn := RingBoard.keeps_turn hok hidle hin (h.out_of_grant hin)
  rw [RingBoard.entered hcall]
  rw [hturn] at hokTurn hkeepsTurn
  set outputs := (onCriticalSection (t.boards o).routing).outputs with houtputs
  set b : RingBoard := { t.boards o with
    inbox := rest
    sync := (t.boards o).sync.setInside .routing true
    task := some .routing
    routing := (onCriticalSection (t.boards o).routing).board
    outbox := outputs.filterMap (RtOutput.ringMsg true) } with hb
  have hinside : b.inside = true := by simp [hb, RingBoard.inside, Sync.setInside]
  have hokb : b.Ok o :=
    { hokTurn with
      outboxAway := fun d hd => absurd hd (RingBoard.ringMsg_not_sync true outputs _)
      outboxRefresh := fun _ _ _ => hinside }
  have hkeeps : (t.boards o).Keeps o b := by
    simp only [RingBoard.Keeps, RingBoard.tokens, List.map_nil, List.countP_nil] at hkeepsTurn ⊢
    rw [RingBoard.ringMsg_no_grant true outputs]
    exact hkeepsTurn
  obtain ⟨hoks, htokens⟩ := h.move_tokens hokb hkeeps
  have hlast : (t.move o b).lastWritten = b.table := by
    change (if b.table = (t.boards o).table then t.lastWritten else b.table) = b.table
    split
    · next heq => rw [heq, htable]
    · rfl
  have honly : ∀ c, ((t.move o b).boards c).inside = true → c = o := by
    intro c hc
    by_contra hco
    rw [move_of_ne t b hco, hnone c] at hc
    cases hc
  refine ⟨hoks, htokens, fun c hc => ?_, fun d c hne hc => ?_⟩
  · obtain rfl := honly c hc
    rw [move_self, hlast]
    exact ⟨rfl, refreshes_behind h hin⟩
  · have hco : o = c := hc o (by rw [move_self]; exact hinside)
    subst hco
    have hsend : refreshes (RingBoard.broadcasts (t.boards o).sending d) = [] := by
      have hplain := hok.transit_plain (hnone o) d
      rw [RingBoard.transit, refreshes_append, List.append_eq_nil_iff] at hplain
      exact hplain.1
    have htransit : refreshes (b.transit d) = outputs.filterMap RtOutput.refresh := by
      rw [RingBoard.transit, refreshes_append]
      change refreshes (RingBoard.broadcasts (t.boards o).sending d) ++ _ = _
      rw [hsend, List.nil_append]
      exact refresh_ringMsg outputs
    rw [move_of_ne t b (Ne.symm hne), move_self, hlast, htransit, settle_append,
      h.settled hnone d, ← htable]
    exact hsettled

end SharedRing

namespace RingBoard

variable {b : RingBoard} {o : Orientation} {csId : ComponentId}

theorem flushed_spec (h : b.flushed = true) :
    b.outbox = [] ∧ ∀ s, b.sending = some s → s.own = false := by
  simp only [flushed, Bool.and_eq_true, List.isEmpty_iff] at h
  refine ⟨h.1, fun s hs => ?_⟩
  have := h.2
  rw [hs] at this
  simpa using this

theorem Ok.flushed_transit (h : b.Ok o) (hflushed : b.flushed = true) (d : Orientation) :
    refreshes (b.transit d) = [] := by
  obtain ⟨hout, hown⟩ := flushed_spec hflushed
  refine refreshes_eq_nil fun m hm => ?_
  rw [transit, hout, List.append_nil] at hm
  cases hs : b.sending with
  | none => simp [broadcasts, hs] at hm
  | some s =>
      simp only [broadcasts, hs, Sending.bringsTo] at hm
      split at hm
      · rw [List.mem_singleton.mp hm]
        exact h.sending_plain hown hs
      · cases hm

theorem Ok.leave_transit (h : b.Ok o) (hflushed : b.flushed = true) (d : Orientation) :
    refreshes ((b.leave csId).transit d) = [] := by
  have hplain := h.flushed_transit hflushed d
  rw [transit, (flushed_spec hflushed).1, List.append_nil] at hplain
  rw [transit, refreshes_append]
  change refreshes (broadcasts b.sending d) ++ _ = _
  rw [hplain]
  exact refreshes_sync _

theorem Ok.inside_task (h : b.Ok o) (htask : b.task = some csId) :
    b.inside = decide (csId = .routing) := by
  have hinside := h.inside_iff
  rw [htask] at hinside
  simpa using hinside

theorem Ok.leave_inside (h : b.Ok o) (htask : b.task = some csId) :
    (b.leave csId).inside = false := by
  have hinside := h.inside_task htask
  rw [inside] at hinside
  rw [inside, leave, Sync.leaveCriticalSection, Sync.release_isInside]
  by_cases hc : csId = .routing
  · subst hc
    simp [Sync.setInside]
  · have hc' : ComponentId.routing ≠ csId := Ne.symm hc
    simp [Sync.setInside, hc', hinside, hc]

theorem ok_leave (h : b.Ok o) (hflushed : b.flushed = true) (htask : b.task = some csId) :
    (b.leave csId).Ok o := by
  have same := Sync.release_identity (b.sync.setInside csId false) csId
  have hreleased : ∀ hfirst, (b.sync.setInside csId false).SendsAway
      ((b.sync.setInside csId false).release csId).2 := fun hfirst =>
    Sync.release_away hfirst csId
  exact
    { h with
      orientation := same.1.trans h.orientation
      first := same.2.2.trans h.first
      inside_iff := h.leave_inside htask
      outboxAway := fun _ hd => away_of_sent h (hreleased h.first) hd
      outboxRefresh := by
        intro m hm hrefresh
        obtain ⟨msg, -, rfl⟩ := List.mem_map.mp hm
        exact absurd rfl hrefresh
      sendingRefresh := fun s hs hrefresh =>
        absurd (h.sending_plain (flushed_spec hflushed).2 hs) hrefresh }

end RingBoard

namespace SharedRing

variable {t : SharedRing}

/-- The token goes on when the callback returns. -/
theorem SingleCopy.keeps_leave (h : t.SingleCopy) {o : Orientation} {csId : ComponentId}
    (hflushed : (t.boards o).flushed = true) (htask : (t.boards o).task = some csId) :
    (t.boards o).Keeps o ((t.boards o).leave csId) := by
  have hinside : (t.boards o).sync.isInside .routing = decide (csId = .routing) :=
    (h.ok o).inside_task htask
  have hisOut : ComponentId.routing = csId → (t.boards o).sync.isLeader = true →
      (t.boards o).sync.leader.isTokenOut csId = true := by
    rintro rfl hl
    have hcenter : o = .center := by simpa [Sync.isLeader, (h.ok o).orientation] using hl
    have := (h.token_at (tokens_of_inside (o := o) (by simpa [RingBoard.inside] using hinside))).1
    rwa [isTokenOut, ← hcenter] at this
  have hbalance := Sync.leaveCriticalSection_balanced (t.boards o).sync csId .routing
    (by rintro rfl; simpa using hinside) hisOut
  simp only [Sync.Balanced] at hbalance
  simp only [RingBoard.Keeps, RingBoard.tokens, RingBoard.leave,
    (RingBoard.flushed_spec hflushed).1, List.countP_nil, countP_sync_isGrant]
  omega

/-- The callback returns. -/
theorem SingleCopy.leave (h : t.SingleCopy) {o : Orientation} {csId : ComponentId}
    (hflushed : (t.boards o).flushed = true) (htask : (t.boards o).task = some csId) :
    (t.move o ((t.boards o).leave csId)).SingleCopy := by
  have hok := h.ok o
  have hokb := RingBoard.ok_leave hok hflushed htask
  have hkeeps := h.keeps_leave hflushed htask
  have hnotin := hok.leave_inside htask
  have hinside := hok.inside_task htask
  have hplain := hok.flushed_transit hflushed
  have htransit (d : Orientation) :
      refreshes (((t.boards o).leave csId).transit d) = [] := hok.leave_transit hflushed d
  by_cases hc : csId = .routing
  · obtain ⟨hoks, htokens⟩ := h.move_tokens hokb hkeeps
    have hin : (t.boards o).inside = true := by simpa [hc] using hinside
    have honly : ∀ c, (t.boards c).inside = true → c = o := fun c hc =>
      h.unique (tokens_of_inside hin) hc
    have hlast : (t.move o ((t.boards o).leave csId)).lastWritten = t.lastWritten := if_pos rfl
    refine ⟨hoks, htokens, fun c hc => ?_, fun d c hne _ => ?_⟩
    · by_cases hco : c = o
      · subst hco
        rw [move_self, hnotin] at hc
        cases hc
      · rw [move_of_ne t _ hco] at hc
        exact absurd (honly c hc) hco
    · have hnothing : refreshes (((t.move o ((t.boards o).leave csId)).boards c).transit d) =
          [] := by
        by_cases hco : c = o
        · subst hco
          rw [move_self]
          exact htransit d
        · rw [move_of_ne t _ hco]
          refine (h.ok c).transit_plain ?_ d
          by_contra hin'
          exact hco (honly c (by simpa using hin'))
      rw [hnothing, List.append_nil, hlast]
      by_cases hdo : d = o
      · subst hdo
        obtain ⟨htable, hinbox⟩ := h.own d hin
        rw [move_self]
        change settle (t.boards d).table (refreshes (t.boards d).inbox) = _
        rw [hinbox, htable]
        rfl
      · have hseen := h.seen d o (Ne.symm hdo) honly
        rw [hplain d, List.append_nil] at hseen
        rw [move_of_ne t _ hdo]
        exact hseen
  · refine h.move
      { ok := hokb
        keeps := hkeeps
        table := rfl
        inbox := rfl
        transit := fun d _ => by rw [htransit d, hplain d]
        inside := ?_ }
    rw [hnotin]
    simp [hinside, hc]

/-- A refresh is copied into the table. -/
theorem SingleCopy.refresh (h : t.SingleCopy) {o : Orientation} {component : ComponentId}
    {data : RtRoutingTable} {rest : List RingMsg} (hidle : (t.boards o).idle = true)
    (hin : (t.boards o).inbox = .sharedState component data :: rest) :
    (t.moveQuiet o ({ t.boards o with inbox := rest }.handle
      (.sharedState component data))).SingleCopy := by
  set b := { t.boards o with inbox := rest }.handle (.sharedState component data) with hb
  have hself : (t.moveQuiet o b).boards o = b := Function.update_self _ _ _
  have hother : ∀ o', o' ≠ o → (t.moveQuiet o b).boards o' = t.boards o' := fun o' ho' =>
    Function.update_of_ne ho' _ _
  have hokb : b.Ok o := { h.ok o with fresh := RingBoard.fresh_tail (h.ok o) hin }
  have hkeeps : (t.boards o).Keeps o b := by
    simp only [RingBoard.Keeps, RingBoard.tokens, hin, List.countP_cons]
    rfl
  obtain ⟨hoks, htokens⟩ := h.move_tokens hokb hkeeps
  have hsettle : ∀ more, settle b.table (refreshes b.inbox ++ more) =
      settle (t.boards o).table (refreshes (t.boards o).inbox ++ more) := by
    intro more
    rw [hin]
    by_cases hc : component = .routing
    · subst hc
      rfl
    · have hplain : RingMsg.refresh (.sharedState component data) = none := by
        cases component <;> first | rfl | exact absurd rfl hc
      rw [refreshes_cons_plain hplain]
      simp [hb, RingBoard.handle, ssOnSiblingMessage, hc]
  have hnotin : b.inside = false := (h.ok o).not_inside hidle
  have hinside : ∀ c, ((t.moveQuiet o b).boards c).inside = true →
      (t.boards c).inside = true ∧ c ≠ o := by
    intro c hc
    by_cases hco : c = o
    · subst hco
      rw [hself, hnotin] at hc
      cases hc
    · rw [hother c hco] at hc
      exact ⟨hc, hco⟩
  refine ⟨hoks, htokens, fun c hc => ?_, fun d c hne hc => ?_⟩
  · obtain ⟨hc', hco⟩ := hinside c hc
    rw [hother c hco]
    exact h.own c hc'
  · have hc' : ∀ c', (t.boards c').inside = true → c' = c := by
      intro c' hin'
      have hne' : c' ≠ o := by
        rintro rfl
        rw [(h.ok c').not_inside hidle] at hin'
        cases hin'
      exact hc c' (by rw [hother c' hne']; exact hin')
    have hseen := h.seen d c hne hc'
    have htransit : refreshes (((t.moveQuiet o b).boards c).transit d) =
        refreshes ((t.boards c).transit d) := by
      by_cases hco : c = o
      · subst hco
        rw [hself]
        rfl
      · rw [hother c hco]
    rw [htransit]
    by_cases hdo : d = o
    · subst hdo
      rw [hself, hsettle]
      exact hseen
    · rw [hother d hdo]
      exact hseen

/-- The tokens of a broadcast that reaches one more board. -/
theorem tokens_reached {s : Sending} {dst : Orientation} (hdst : dst ∈ s.left) :
    Sending.tokens { s with left := s.left.filter (· ≠ dst) } +
      (if s.msg.grants dst then 1 else 0) = s.tokens := by
  have hupdate : (fun o => (Sending.bringsTo { s with left := s.left.filter (· ≠ dst) } o).countP
      (·.grants o)) =
      Function.update (fun o => (s.bringsTo o).countP (·.grants o)) dst 0 := by
    funext o
    by_cases ho : o = dst
    · subst ho
      simp [Sending.bringsTo]
    · simp [Sending.bringsTo, ho]
  have htotal := Orientation.total_update (fun o => (s.bringsTo o).countP (·.grants o)) dst 0
  have hone : (s.bringsTo dst).countP (·.grants dst) = if s.msg.grants dst then 1 else 0 := by
    simp [Sending.bringsTo, hdst, List.countP_cons]
  simp only [hone] at htotal
  unfold Sending.tokens
  rw [hupdate]
  omega

theorem broadcasts_reached {b : RingBoard} {s : Sending} (hs : b.sending = some s)
    (dst d : Orientation) :
    RingBoard.broadcasts (b.reached s dst).sending d =
      if d = dst then [] else RingBoard.broadcasts b.sending d := by
  have hleft : d ∈ s.left.filter (· ≠ dst) ↔ d ∈ s.left ∧ d ≠ dst := by simp
  unfold RingBoard.reached
  dsimp only
  split
  · next hnil =>
    rw [hnil] at hleft
    by_cases hd : d = dst
    · simp [hd, RingBoard.broadcasts]
    · have : d ∉ s.left := fun hmem => by simpa using hleft.mpr ⟨hmem, hd⟩
      simp [RingBoard.broadcasts, hs, Sending.bringsTo, this]
  · by_cases hd : d = dst
    · simp [RingBoard.broadcasts, Sending.bringsTo, hd]
    · simp [RingBoard.broadcasts, hs, Sending.bringsTo, hd]

theorem ok_reached {b : RingBoard} {o : Orientation} (h : b.Ok o) {s : Sending}
    (hs : b.sending = some s) (dst : Orientation) : (b.reached s dst).Ok o := by
  have hsending : ∀ s', (b.reached s dst).sending = some s' →
      s'.left = s.left.filter (· ≠ dst) ∧ s'.msg = s.msg ∧ s'.own = s.own := by
    intro s' hs'
    simp only [RingBoard.reached] at hs'
    split at hs'
    · cases hs'
    · cases hs'
      exact ⟨rfl, rfl, rfl⟩
  exact
    { h with
      leftAway := by
        intro s' hs' hmem
        rw [(hsending s' hs').1] at hmem
        exact h.leftAway s hs (List.mem_of_mem_filter hmem)
      sendingRefresh := by
        intro s' hs' hrefresh
        obtain ⟨-, hmsg, hown⟩ := hsending s' hs'
        rw [hmsg] at hrefresh
        rw [hown]
        exact h.sendingRefresh s hs hrefresh }

theorem transit_reached {b : RingBoard} {s : Sending} (hs : b.sending = some s)
    {dst d : Orientation} (hd : d ≠ dst) :
    (b.reached s dst).transit d = b.transit d := by
  rw [RingBoard.transit, broadcasts_reached hs, if_neg hd]
  rfl

/-- The sender's tokens without the copy that arrived. -/
theorem tokens_source {b : RingBoard} {s : Sending} (hs : b.sending = some s)
    {o dst : Orientation} (hdst : dst ∈ s.left) :
    (b.reached s dst).tokens o + (if s.msg.grants dst then 1 else 0) = b.tokens o := by
  have hreached := tokens_reached hdst
  have hsend : ((b.reached s dst).sending.map Sending.tokens).getD 0 =
      Sending.tokens { s with left := s.left.filter (· ≠ dst) } := by
    rw [RingBoard.reached]
    dsimp only
    split
    · next hnil =>
      rw [hnil]
      rfl
    · rfl
  simp only [RingBoard.tokens, hsend, hs, Option.map_some, Option.getD_some]
  simp only [RingBoard.reached]
  omega

/-! The boards after a copy has arrived. -/

theorem arrive_dst {o dst : Orientation} (hne : dst ≠ o) (s : Sending) :
    (t.arrive o dst s).boards dst =
      { t.boards dst with inbox := (t.boards dst).inbox ++ [s.msg] } := by
  simp only [SharedRing.arrive, moveQuiet, Function.update_self, Function.update_of_ne hne]

theorem arrive_source {o dst : Orientation} (hne : dst ≠ o) (s : Sending) :
    (t.arrive o dst s).boards o = (t.boards o).reached s dst := by
  simp only [SharedRing.arrive, moveQuiet, Function.update_of_ne (Ne.symm hne),
    Function.update_self]

theorem arrive_of_ne {o dst c : Orientation} (hco : c ≠ o) (hcd : c ≠ dst) (s : Sending) :
    (t.arrive o dst s).boards c = t.boards c := by
  simp only [SharedRing.arrive, moveQuiet, Function.update_of_ne hcd, Function.update_of_ne hco]

theorem arrive_view {o dst : Orientation} (hne : dst ≠ o) (s : Sending) (c : Orientation) :
    ((t.arrive o dst s).boards c).sync = (t.boards c).sync ∧
      ((t.arrive o dst s).boards c).table = (t.boards c).table ∧
      (c ≠ dst → ((t.arrive o dst s).boards c).inbox = (t.boards c).inbox) := by
  by_cases hcd : c = dst
  · subst hcd
    rw [arrive_dst hne]
    exact ⟨rfl, rfl, fun hcc => absurd rfl hcc⟩
  · by_cases hco : c = o
    · subst hco
      rw [arrive_source hne]
      exact ⟨rfl, rfl, fun _ => rfl⟩
    · rw [arrive_of_ne hco hcd]
      exact ⟨rfl, rfl, fun _ => rfl⟩

theorem arrive_inside {o dst : Orientation} (hne : dst ≠ o) (s : Sending) (c : Orientation) :
    ((t.arrive o dst s).boards c).inside = (t.boards c).inside := by
  simp only [RingBoard.inside, (arrive_view hne s c).1]

theorem arrive_inbox {o dst : Orientation} (hne : dst ≠ o) (s : Sending) :
    refreshes ((t.arrive o dst s).boards dst).inbox =
      refreshes (t.boards dst).inbox ++ refreshes [s.msg] := by
  rw [arrive_dst hne, refreshes_append]

/-- A token that arrives leaves the sender for the receiver. -/
theorem arrive_tokens {o dst : Orientation} {s : Sending} (hne : dst ≠ o)
    (hs : (t.boards o).sending = some s) (hdst : dst ∈ s.left) :
    (Orientation.total fun c => ((t.arrive o dst s).boards c).tokens c) =
      Orientation.total fun c => (t.boards c).tokens c := by
  set b₁ := (t.boards o).reached s dst with hb₁
  set b₂ : RingBoard := { t.boards dst with inbox := (t.boards dst).inbox ++ [s.msg] } with hb₂
  have hboards : (t.arrive o dst s).boards =
      Function.update (Function.update t.boards o b₁) dst b₂ := by
    simp only [SharedRing.arrive, moveQuiet, Function.update_of_ne hne]
    rfl
  have hfirst := Orientation.total_move (fun o b => RingBoard.tokens b o) t.boards o b₁
  have hsecond := Orientation.total_move (fun o b => RingBoard.tokens b o)
    (Function.update t.boards o b₁) dst b₂
  rw [Function.update_of_ne hne] at hsecond
  have h₁ : b₁.tokens o + (if s.msg.grants dst then 1 else 0) = (t.boards o).tokens o :=
    tokens_source hs hdst
  have h₂ : b₂.tokens dst =
      (t.boards dst).tokens dst + (if s.msg.grants dst then 1 else 0) := by
    simp only [hb₂, RingBoard.tokens, List.countP_append, List.countP_cons, List.countP_nil]
    omega
  rw [hboards]
  omega

theorem SingleCopy.refresh_receiver (h : t.SingleCopy) {o dst : Orientation} {s : Sending}
    (hs : (t.boards o).sending = some s) (hne : dst ≠ o) (hrefresh : s.msg.refresh ≠ none) :
    (t.boards dst).tokens dst = 0 :=
  (h.token_at (tokens_of_inside ((h.ok o).sendingRefresh s hs hrefresh).2)).2.2 dst hne

theorem SingleCopy.arrive_ok (h : t.SingleCopy) {o dst : Orientation} {s : Sending}
    (hs : (t.boards o).sending = some s) (hne : dst ≠ o) (c : Orientation) :
    ((t.arrive o dst s).boards c).Ok c := by
  by_cases hcd : c = dst
  · subst hcd
    rw [arrive_dst hne]
    exact
      { h.ok c with
        fresh := by
          refine List.pairwise_append.mpr ⟨(h.ok c).fresh, List.pairwise_singleton _ _, ?_⟩
          intro m hm m' hm' hgrant
          rw [List.mem_singleton.mp hm']
          by_contra hrefresh
          have hzero := h.refresh_receiver hs hne hrefresh
          have hpos : 0 < (t.boards c).inbox.countP (·.grants c) :=
            List.countP_pos_iff.mpr ⟨m, hm, hgrant⟩
          simp only [RingBoard.tokens] at hzero
          omega }
  · by_cases hco : c = o
    · subst hco
      rw [arrive_source hne]
      exact ok_reached (h.ok c) hs dst
    · rw [arrive_of_ne hco hcd]
      exact h.ok c

/-- What a copy takes from the sender's refreshes it puts behind the receiver's, if it is
one; no other board sends any. -/
theorem SingleCopy.arrive_seen (h : t.SingleCopy) {o dst : Orientation} {s : Sending}
    (hs : (t.boards o).sending = some s) (hdst : dst ∈ s.left) (hne : dst ≠ o)
    {d c : Orientation} (hcd : c ≠ d) (honly : ∀ c', (t.boards c').inside = true → c' = c) :
    refreshes ((t.arrive o dst s).boards d).inbox ++
        refreshes (((t.arrive o dst s).boards c).transit d) =
      refreshes (t.boards d).inbox ++ refreshes ((t.boards c).transit d) := by
  by_cases hd : d = dst
  · subst hd
    rw [arrive_inbox hne, List.append_assoc]
    by_cases hco : c = o
    · subst hco
      have hbefore : (t.boards c).transit d = [s.msg] ++ (t.boards c).outbox := by
        simp [RingBoard.transit, RingBoard.broadcasts, hs, Sending.bringsTo, hdst]
      have hafter : ((t.arrive c d s).boards c).transit d = (t.boards c).outbox := by
        rw [arrive_source hne, RingBoard.transit, broadcasts_reached hs, if_pos rfl]
        rfl
      rw [hbefore, hafter, refreshes_append]
    · have hplain : s.msg.refresh = none := by
        by_contra hrefresh
        exact hco (honly o ((h.ok o).sendingRefresh s hs hrefresh).2).symm
      rw [arrive_of_ne hco hcd]
      simp [refreshes, hplain]
  · rw [(arrive_view hne s d).2.2 hd]
    by_cases hco : c = o
    · subst hco
      rw [arrive_source hne, transit_reached hs hd]
    · by_cases hcdst : c = dst
      · subst hcdst
        rw [arrive_dst hne]
        rfl
      · rw [arrive_of_ne hco hcdst]

/-- A broadcast reaches one more board. -/
theorem SingleCopy.arrive (h : t.SingleCopy) {o dst : Orientation} {s : Sending}
    (hs : (t.boards o).sending = some s) (hdst : dst ∈ s.left) :
    (t.arrive o dst s).SingleCopy := by
  have hne : dst ≠ o := by
    rintro rfl
    exact (h.ok dst).leftAway s hs hdst
  refine ⟨h.arrive_ok hs hne, ?_, fun c hc => ?_, fun d c hcd hc => ?_⟩
  · have hout : (t.arrive o dst s).isTokenOut = t.isTokenOut := by
      simp only [isTokenOut, (arrive_view hne s .center).1]
    rw [arrive_tokens hne hs hdst, hout]
    exact h.tokens
  · rw [arrive_inside hne] at hc
    obtain ⟨htable, hold⟩ := h.own c hc
    rw [(arrive_view hne s c).2.1]
    refine ⟨htable, ?_⟩
    by_cases hcd : c = dst
    · subst hcd
      have hplain : s.msg.refresh = none := by
        by_contra hrefresh
        have hzero := h.refresh_receiver hs hne hrefresh
        have hpos := tokens_of_inside (o := c) hc
        omega
      rw [arrive_inbox hne, hold]
      simp [refreshes, hplain]
    · rw [(arrive_view hne s c).2.2 hcd]
      exact hold
  · have honly : ∀ c', (t.boards c').inside = true → c' = c := fun c' hin =>
      hc c' (by rw [arrive_inside hne]; exact hin)
    have hseen := h.seen d c hcd honly
    rw [(arrive_view hne s d).2.1, h.arrive_seen hs hdst hne hcd honly]
    exact hseen

/-! ## Runs -/

theorem start_singleCopy (roles : Orientation → RtRole)
    (registered : Orientation → ComponentId → Bool) : (start roles registered).SingleCopy where
  ok o :=
    { orientation := rfl
      first := rfl
      inside_iff := rfl
      outboxAway := by simp [start]
      othersAway := by simp [start]
      leftAway := by simp [start]
      outboxRefresh := by simp [start]
      othersPlain := by simp [start]
      sendingRefresh := by simp [start]
      fresh := List.Pairwise.nil }
  tokens := rfl
  own o ho := by cases ho
  seen _ _ _ _ := rfl

theorem SingleCopy.handle {u : SharedRing} (h : t.SingleCopy) {o : Orientation}
    (hs : t.handle o = some u) : u.SingleCopy := by
  unfold SharedRing.handle at hs
  dsimp only at hs
  cases hin : (t.boards o).inbox with
  | nil =>
      rw [hin] at hs
      cases hs
  | cons msg rest =>
      rw [hin] at hs
      dsimp only at hs
      by_cases hidle : (t.boards o).idle = true
      · rw [if_pos hidle] at hs
        cases msg with
        | sync m =>
            cases hs
            by_cases hcall : ((t.boards o).sync.onSiblingMessage m).callback = some .routing
            · exact h.enter hidle hin hcall
            · exact h.move (RingBoard.quiet_handleSync (h.ok o) hidle hin
                (h.out_of_grant hin) hcall)
        | sharedState component data =>
            cases hs
            exact h.refresh hidle hin
        | routing event =>
            cases hs
            exact h.move (RingBoard.quiet_handleRouting (h.ok o) hidle hin)
      · rw [if_neg hidle] at hs
        cases hs

theorem onPeerMessage_table (board : Routing) (event : RtPeerEvent) (len : Nat) :
    (onPeerMessage board event len).1.routingTable = board.routingTable := by
  unfold onPeerMessage queuePeerMessage
  split
  · rfl
  · split <;> rfl

theorem queuePeerMessage_table (board : Routing) (event : RtPeerEvent) :
    (queuePeerMessage board event).1.routingTable = board.routingTable := by
  unfold queuePeerMessage
  split <;> rfl

theorem SingleCopy.step {u : SharedRing} (h : t.SingleCopy) {l : SharedLabel}
    (hs : t.step l = some u) : u.SingleCopy := by
  cases l with
  | sendOwn o =>
      simp only [SharedRing.step] at hs
      split at hs
      · next msg rest hnone hout =>
        cases hs
        exact h.move (RingBoard.quiet_sendOwn (h.ok o) hnone hout)
      · cases hs
  | sendOther o msg =>
      simp only [SharedRing.step] at hs
      split at hs
      · next hm =>
        cases hs
        exact h.move (RingBoard.quiet_sendOther (h.ok o) hm.1 hm.2)
      · cases hs
  | arrive o dst =>
      simp only [SharedRing.step] at hs
      split at hs
      · next s hsending =>
        split at hs
        · next hdst =>
          cases hs
          exact h.arrive hsending hdst
        · cases hs
      · cases hs
  | handle o => exact h.handle hs
  | leave o =>
      simp only [SharedRing.step] at hs
      split at hs
      · next hflushed =>
        obtain ⟨csId, htask, rfl⟩ := Option.map_eq_some_iff.mp hs
        exact h.leave hflushed htask
      · cases hs
  | request o csId =>
      cases hs
      exact h.move (RingBoard.quiet_request (h.ok o) csId)
  | peerMessage o event len =>
      cases hs
      exact h.move (RingBoard.quiet_queuePeer (h.ok o) (onPeerMessage_table _ event len))
  | peerConnected o network =>
      cases hs
      exact h.move (RingBoard.quiet_queuePeer (h.ok o) (queuePeerMessage_table _ _))
  | peerLost o network =>
      cases hs
      exact h.move (RingBoard.quiet_queuePeer (h.ok o) (queuePeerMessage_table _ _))
  | tick o dtMs =>
      cases hs
      exact h.move (RingBoard.quiet_tick (h.ok o) dtMs)

theorem SingleCopy.run {roles : Orientation → RtRole}
    {registered : Orientation → ComponentId → Bool} {t : SharedRing}
    (run : sharedRing.Reaches (start roles registered) t) : t.SingleCopy :=
  run.invariant (start_singleCopy roles registered) fun _ _ _ inv _ hs => inv.step hs

/-- Nobody is inside and no message is on its way. -/
def Calm (t : SharedRing) : Prop :=
  ∀ o, (t.boards o).inside = false ∧ (t.boards o).inbox = [] ∧ (t.boards o).outbox = [] ∧
    (t.boards o).others = [] ∧ (t.boards o).sending = none

/-- Handling the message in front starts the callback of the routing module. -/
def Enters (t : SharedRing) (o : Orientation) : Prop :=
  (t.boards o).inside = false ∧ ∃ u, sharedRing.step t (.handle o) = some u ∧
    (u.boards o).inside = true

theorem SingleCopy.table_of_enters (h : t.SingleCopy) {o : Orientation} (henters : t.Enters o) :
    (t.boards o).table = t.lastWritten := by
  obtain ⟨hout, u, hs, hin⟩ := henters
  change t.handle o = some u at hs
  unfold SharedRing.handle at hs
  dsimp only at hs
  cases hbox : (t.boards o).inbox with
  | nil =>
      rw [hbox] at hs
      cases hs
  | cons msg rest =>
      rw [hbox] at hs
      dsimp only at hs
      by_cases hidle : (t.boards o).idle = true
      · rw [if_pos hidle] at hs
        cases msg with
        | sync m =>
            cases hs
            by_cases hcall : ((t.boards o).sync.onSiblingMessage m).callback = some .routing
            · have hmsg := (Sync.onSiblingMessage_callback hcall).1
              rw [(h.ok o).orientation] at hmsg
              subst hmsg
              exact h.table_at_entry hidle hbox
            · have quiet := RingBoard.quiet_handleSync (h.ok o) hidle hbox
                (h.out_of_grant hbox) hcall
              rw [move_self] at hin
              have hin' := quiet.inside.symm.trans hin
              rw [hout] at hin'
              cases hin'
        | sharedState component data =>
            cases hs
            simp only [moveQuiet, Function.update_self] at hin
            change (t.boards o).inside = true at hin
            rw [hout] at hin
            cases hin
        | routing event =>
            cases hs
            have quiet := RingBoard.quiet_handleRouting (h.ok o) hidle hbox
            rw [move_self] at hin
            have hin' := quiet.inside.symm.trans hin
            rw [hout] at hin'
            cases hin'
      · rw [if_neg hidle] at hs
        cases hs

end SharedRing

/-- Every board enters its critical section with the table of the last board that modified
it, and all five tables are equal whenever the ring is calm. -/
theorem sharedRing_singleCopy (roles : Orientation → RtRole)
    (registered : Orientation → ComponentId → Bool) {t : SharedRing}
    (run : sharedRing.Reaches (SharedRing.start roles registered) t) :
    (∀ o, t.Enters o → (t.boards o).table = t.lastWritten) ∧
      (t.Calm → ∀ o o', (t.boards o).table = (t.boards o').table) := by
  have h := SharedRing.SingleCopy.run run
  refine ⟨fun o => h.table_of_enters, fun calm o o' => ?_⟩
  have hlast : ∀ c, (t.boards c).table = t.lastWritten := by
    intro c
    have hsettled := h.settled (fun c => (calm c).1) c
    rw [(calm c).2.1] at hsettled
    exact hsettled
  rw [hlast o, hlast o']

/-- A node with a root at its center. -/
def rootRoles : Orientation → RtRole
  | .center => .root (createRootCore 0x0a000000 0xff000000)
  | _ => .forwarder createForwarderCore

def reachAll (o : Orientation) : List SharedLabel := o.siblings.map (.arrive o)

/-- A handshake comes to north, which asks for the lock, gets it from the leader, changes the table
and passes the lock on; south has handled all but the grant. -/
def firstRound : List SharedLabel :=
  .peerMessage .north (.handshake ⟨.zero, ⟨0x0a000000, 0xff000000⟩, 1⟩) sizeofRtPeerEvent ::
    .sendOther .north (.sync (.tokenRequest .routing)) :: reachAll .north ++
  .handle .center :: .sendOwn .center :: reachAll .center ++
  .handle .north :: .sendOwn .north :: reachAll .north ++ .sendOwn .north :: reachAll .north ++
  .leave .north :: .sendOwn .north :: reachAll .north ++
  .handle .south :: .handle .south :: .handle .south :: .handle .south ::
    .sendOwn .south :: reachAll .south

/-- South enters with the table of north, which is not the first one any more. -/
theorem sharedRing_singleCopy_firstRound :
    ∃ t, sharedRing.run (SharedRing.start rootRoles fun _ _ => true) firstRound = some t ∧
      t.Enters .south ∧ (t.boards .south).table = t.lastWritten ∧
      t.lastWritten ≠ routingTableInit Orientation.center.output := by
  have changed : (sharedRing.run (SharedRing.start rootRoles fun _ _ => true) firstRound).any
      fun t => !(t.boards .south).inside &&
        (t.handle .south).any (fun u => (u.boards .south).inside) &&
        decide (t.lastWritten ≠ routingTableInit Orientation.center.output) := by
    decide +kernel
  obtain ⟨t, ht, hall⟩ := (Option.any_eq_true _ _).mp changed
  simp only [Bool.and_eq_true, Bool.not_eq_true', decide_eq_true_eq] at hall
  obtain ⟨⟨hout, hhandle⟩, hchanged⟩ := hall
  obtain ⟨u, hu, hin⟩ := (Option.any_eq_true _ _).mp hhandle
  have henters : t.Enters .south := ⟨hout, u, hu, hin⟩
  obtain ⟨hcopy, -⟩ := sharedRing_singleCopy rootRoles (fun _ _ => true)
    (Machine.reaches_of_run ht)
  exact ⟨t, ht, henters, hcopy .south henters, hchanged⟩

end I4A
