import Mathlib.Data.List.Count
import I4A.Core.Machine
import I4A.Sync.Protocol

/-! # The token ring

Five boards and the packets in flight between them. A broadcast puts one packet
for each sibling in flight, and a packet may be handed over at any later time.
The invariant of a component's lock ties the leader's flag to the tokens in
flight or inside a callback, and every request since the token's last visit to
something that will bring the token by again.
-/

namespace I4A

/-- One copy of a broadcast message on its way. -/
structure SyncPacket where
  src : Orientation
  dst : Orientation
  msg : SyncMsg
  deriving DecidableEq

/-- The component whose token the packet hands to its destination. -/
def SyncPacket.visits (p : SyncPacket) : Option ComponentId :=
  match p.msg with
  | .tokenGrant csId d => if d = p.dst then some csId else none
  | .tokenRequest _ => none

/-- `rs_broadcast` of a list of messages. -/
def syncBroadcast (src : Orientation) (sent : List SyncMsg) : List SyncPacket :=
  sent.flatMap fun msg => src.siblings.map (⟨src, ·, msg⟩)

structure TokenRing where
  boards : Orientation → Sync
  /-- The callback the board's siblings task is in. -/
  task : Orientation → Option ComponentId
  packets : List SyncPacket
  /-- History: the board has requested since the token last visited it. -/
  waiting : Orientation → ComponentId → Bool

inductive RingLabel where
  /-- `sync_request_critical_section` on a board, from any of its tasks. -/
  | request (b : Orientation) (csId : ComponentId)
  /-- A packet is handled by its destination. -/
  | deliver (p : SyncPacket)
  /-- The callback a board is in returns. -/
  | leave (b : Orientation)
  deriving DecidableEq

namespace TokenRing

def start (registered : Orientation → ComponentId → Bool) : TokenRing where
  boards := fun o => syncInit o (registered o)
  task := fun _ => none
  packets := []
  waiting := fun _ _ => false

/-- Record that a board asked for the token, or that the token came by. -/
def mark (waiting : Orientation → ComponentId → Bool) (b : Orientation) (csId : ComponentId)
    (value : Bool) : Orientation → ComponentId → Bool :=
  Function.update waiting b (Function.update (waiting b) csId value)

def request (t : TokenRing) (b : Orientation) (csId : ComponentId) : TokenRing :=
  let result := (t.boards b).requestCriticalSection csId
  { t with
    boards := Function.update t.boards b result.1
    packets := t.packets ++ syncBroadcast b result.2
    waiting := mark t.waiting b csId true }

/-- The token coming by settles the board's requests. -/
def markVisit (waiting : Orientation → ComponentId → Bool) (p : SyncPacket) :
    Orientation → ComponentId → Bool :=
  match p.visits with
  | some csId => mark waiting p.dst csId false
  | none => waiting

def deliver (t : TokenRing) (p : SyncPacket) : TokenRing :=
  let turn := (t.boards p.dst).onSiblingMessage p.msg
  { boards := Function.update t.boards p.dst turn.sync
    task := Function.update t.task p.dst turn.callback
    packets := t.packets.erase p ++ syncBroadcast p.dst turn.sent
    waiting := markVisit t.waiting p }

def leave (t : TokenRing) (b : Orientation) (csId : ComponentId) : TokenRing :=
  let result := (t.boards b).leaveCriticalSection csId
  { t with
    boards := Function.update t.boards b result.1
    task := Function.update t.task b none
    packets := t.packets ++ syncBroadcast b result.2 }

/-- A board handles sibling messages only between callbacks. -/
def step (t : TokenRing) : RingLabel → Option TokenRing
  | .request b csId => some (t.request b csId)
  | .deliver p => if p ∈ t.packets ∧ t.task p.dst = none then some (t.deliver p) else none
  | .leave b => (t.task b).map (t.leave b)

end TokenRing

def tokenRing : Machine TokenRing RingLabel := ⟨TokenRing.step⟩

/-! ## Live tokens -/

/-- The packet is a grant that its destination has still to handle. -/
def SyncPacket.live (csId : ComponentId) (p : SyncPacket) : Bool :=
  p.msg = .tokenGrant csId p.dst

@[simp] theorem mem_syncBroadcast {src : Orientation} {sent : List SyncMsg} {p : SyncPacket} :
    p ∈ syncBroadcast src sent ↔ p.msg ∈ sent ∧ p.dst ≠ src ∧ p.src = src := by
  obtain ⟨s, d, m⟩ := p
  simp only [syncBroadcast, List.mem_flatMap, List.mem_map, Orientation.mem_siblings,
    SyncPacket.mk.injEq]
  constructor
  · rintro ⟨m', hm, d', hd, rfl, rfl, rfl⟩
    exact ⟨hm, hd, rfl⟩
  · rintro ⟨hm, hd, rfl⟩
    exact ⟨m, hm, d, hd, rfl, rfl, rfl⟩

private theorem live_copies (csId : ComponentId) (src : Orientation) (msg : SyncMsg)
    (away : ∀ d, msg = .tokenGrant csId d → d ≠ src) :
    (src.siblings.map (SyncPacket.mk src · msg)).countP (SyncPacket.live csId) =
      if msg.isGrant csId then 1 else 0 := by
  cases msg with
  | tokenRequest c => simp [SyncPacket.live, SyncMsg.isGrant, List.countP_map]
  | tokenGrant c d =>
      by_cases hc : c = csId
      · subst hc
        have hd : d ≠ src := away d rfl
        simp only [SyncMsg.isGrant, decide_true, if_true, List.countP_map]
        have hcount : src.siblings.countP (fun o => decide (d = o)) = 1 := by
          revert hd
          cases src <;> cases d <;> decide
        rw [← hcount]
        refine List.countP_congr fun o _ => ?_
        simp [SyncPacket.live]
      · simp [SyncPacket.live, SyncMsg.isGrant, List.countP_map, hc]

theorem live_syncBroadcast {csId : ComponentId} {src : Orientation} {sent : List SyncMsg}
    (away : ∀ d, .tokenGrant csId d ∈ sent → d ≠ src) :
    (syncBroadcast src sent).countP (SyncPacket.live csId) = grantsOf csId sent := by
  induction sent with
  | nil => rfl
  | cons msg rest ih =>
      have hfirst := live_copies csId src msg fun d h => away d (h ▸ List.mem_cons_self)
      have hrest := ih fun d h => away d (List.mem_cons_of_mem _ h)
      unfold syncBroadcast at hrest ⊢
      rw [List.flatMap_cons, List.countP_append, hfirst, hrest]
      simp only [grantsOf, List.countP_cons]
      omega

namespace TokenRing

variable {cs : ComponentId}

/-- Grants not yet handled by their destination, and boards inside the callback. -/
def liveTokens (t : TokenRing) (csId : ComponentId) : Nat :=
  t.packets.countP (SyncPacket.live csId) + Orientation.total fun o => (t.boards o).held csId

/-- The leader's `is_token_out[cs_id]`. -/
def isTokenOut (t : TokenRing) (csId : ComponentId) : Bool :=
  (t.boards .center).leader.isTokenOut csId

/-- The leader's `requested_tokens[cs_id]`. -/
def requestedTokens (t : TokenRing) (csId : ComponentId) : UInt8 :=
  (t.boards .center).leader.requestedTokens csId

/-- A live token has still to visit the board: it is on its way to this board or to one
before it on the ring, or it is inside one before it. -/
def Ahead (t : TokenRing) (csId : ComponentId) (b : Orientation) : Prop :=
  (∃ p ∈ t.packets, p.live csId = true ∧ p.dst.val ≤ b.val) ∨
    ∃ o, (t.boards o).isInside csId = true ∧ o.val < b.val

/-- Something will bring the token to the board. -/
def Served (t : TokenRing) (csId : ComponentId) (b : Orientation) : Prop :=
  ⟨b, .center, .tokenRequest csId⟩ ∈ t.packets ∨ 0 < t.requestedTokens csId ∨ t.Ahead csId b

/-- The invariant of one component's lock. -/
structure Lock (csId : ComponentId) (t : TokenRing) : Prop where
  orientation : ∀ o, (t.boards o).orientation = o
  first : ∀ o, (t.boards o).leader.firstDeviceToGetToken = .north
  inside : ∀ o, (t.boards o).isInside csId = decide (t.task o = some csId)
  balanced : t.liveTokens csId = if t.isTokenOut csId then 1 else 0
  served : ∀ b, t.waiting b csId = true → t.Served csId b

theorem total_owed {t : TokenRing} (horient : ∀ o, (t.boards o).orientation = o) :
    (Orientation.total fun o => (t.boards o).owed cs) = if t.isTokenOut cs then 1 else 0 := by
  have hfollower : ∀ o, o ≠ .center → (t.boards o).owed cs = 0 := fun o ho =>
    Sync.owed_follower (by simp [Sync.isLeader, horient o, ho])
  have hleader : (t.boards .center).owed cs = if t.isTokenOut cs then 1 else 0 :=
    Sync.owed_leader (by simp [Sync.isLeader, horient .center])
  simp [Orientation.total, hfollower, hleader]

/-- One move of one board keeps the count: `rest` is what it left in flight and `taken` the
token it took from there. -/
theorem balanced_move {t t' : TokenRing} {b : Orientation} {s : Sync} {sent : List SyncMsg}
    {rest : List SyncPacket} {taken : Nat}
    (horient : ∀ o, (t.boards o).orientation = o) (horient' : ∀ o, (t'.boards o).orientation = o)
    (hboards : t'.boards = Function.update t.boards b s)
    (hpackets : t'.packets = rest ++ syncBroadcast b sent)
    (hrest : rest.countP (SyncPacket.live cs) + taken =
      t.packets.countP (SyncPacket.live cs))
    (away : (t.boards b).SendsAway sent) (balance : (t.boards b).Balanced cs taken s sent)
    (h : t.liveTokens cs = if t.isTokenOut cs then 1 else 0) :
    t'.liveTokens cs = if t'.isTokenOut cs then 1 else 0 := by
  rw [← total_owed horient] at h
  rw [← total_owed horient']
  have hsent : (syncBroadcast b sent).countP (SyncPacket.live cs) = grantsOf cs sent :=
    live_syncBroadcast fun d hd => horient b ▸ away cs d hd
  have hheld := Orientation.total_move (fun _ s => Sync.held s cs) t.boards b s
  have howed := Orientation.total_move (fun _ s => Sync.owed s cs) t.boards b s
  unfold Sync.Balanced at balance
  unfold liveTokens at h ⊢
  rw [hpackets, List.countP_append, hsent, hboards]
  omega

/-! ## Waiting boards -/

theorem Served.mono {t t' : TokenRing} {b : Orientation} (h : t.Served cs b)
    (request : ⟨b, .center, .tokenRequest cs⟩ ∈ t.packets →
      ⟨b, .center, .tokenRequest cs⟩ ∈ t'.packets)
    (counter : 0 < t.requestedTokens cs → t'.Served cs b)
    (flight : ∀ p ∈ t.packets, p.live cs = true → p.dst.val ≤ b.val → t'.Ahead cs b)
    (inside : ∀ o, (t.boards o).isInside cs = true → o.val < b.val → t'.Ahead cs b) :
    t'.Served cs b := by
  rcases h with h | h | ⟨p, hp, hlive, hle⟩ | ⟨o, ho, hlt⟩
  · exact .inl (request h)
  · exact counter h
  · exact .inr (.inr (flight p hp hlive hle))
  · exact .inr (.inr (inside o ho hlt))

/-- A move that keeps the counter, the callbacks and the component's packets in flight
serves whom it served. -/
theorem Served.frame {t t' : TokenRing} {b : Orientation} (h : t.Served cs b)
    (counter : t'.requestedTokens cs = t.requestedTokens cs)
    (inside : ∀ o, (t'.boards o).isInside cs = (t.boards o).isInside cs)
    (flight : ∀ p ∈ t.packets, p = ⟨b, .center, .tokenRequest cs⟩ ∨ p.live cs = true →
      p ∈ t'.packets) : t'.Served cs b :=
  h.mono (fun hp => flight _ hp (.inl rfl)) (fun hreq => .inr (.inl (by rw [counter]; exact hreq)))
    (fun p hp hlive hle => .inl ⟨p, flight p hp (.inr hlive), hlive, hle⟩)
    (fun o ho hlt => .inr ⟨o, by rw [inside o]; exact ho, hlt⟩)

/-- A new token at the first board will visit every board. -/
theorem served_of_round {t : TokenRing} {src : Orientation}
    (h : ⟨src, .north, .tokenGrant cs .north⟩ ∈ t.packets) (b : Orientation) :
    t.Served cs b :=
  .inr (.inr (.inl ⟨_, h, by simp [SyncPacket.live], b.val_pos⟩))

theorem mark_apply (waiting : Orientation → ComponentId → Bool) (b b' : Orientation)
    (c c' : ComponentId) (value : Bool) :
    mark waiting b c value b' c' = if b' = b ∧ c' = c then value else waiting b' c' := by
  unfold mark
  by_cases hb : b' = b
  · subst hb
    by_cases hc : c' = c
    · subst hc
      simp
    · simp [hc]
  · simp [hb]

theorem Lock.identity_move {t : TokenRing} (h : Lock cs t) {b : Orientation} {s : Sync}
    (same : (t.boards b).SameIdentity s) :
    (∀ o, (Function.update t.boards b s o).orientation = o) ∧
      ∀ o, (Function.update t.boards b s o).leader.firstDeviceToGetToken = .north := by
  refine ⟨fun o => ?_, fun o => ?_⟩
  · by_cases ho : o = b
    · subst ho
      rw [Function.update_self, same.1, h.orientation o]
    · rw [Function.update_of_ne ho, h.orientation o]
  · by_cases ho : o = b
    · subst ho
      rw [Function.update_self, same.2.2, h.first o]
    · rw [Function.update_of_ne ho, h.first o]

theorem Lock.isLeader {t : TokenRing} (h : Lock cs t) (b : Orientation) :
    (t.boards b).isLeader = decide (b = .center) := by
  simp only [Sync.isLeader, h.orientation b]

/-! ## Requests -/

theorem Lock.served_of_request {t t' : TokenRing} (h : Lock cs t)
    (hboards : t'.boards .center = ((t.boards .center).requestCriticalSection cs).1)
    (hpackets : ∀ p ∈ syncBroadcast .center ((t.boards .center).requestCriticalSection cs).2,
      p ∈ t'.packets) (b : Orientation) : t'.Served cs b := by
  have hl : (t.boards .center).isLeader = true := by simp [h.isLeader]
  rw [Sync.requestCriticalSection, if_pos hl] at hboards hpackets
  rcases Sync.leaderRequest_recorded (t.boards .center) cs with hcount | hsent
  · exact .inr (.inl (by rw [requestedTokens, hboards]; exact hcount))
  · rw [h.first] at hsent
    have hround : ⟨.center, .north, .tokenGrant cs .north⟩ ∈ t'.packets :=
      hpackets _ (by simp [hsent])
    exact served_of_round hround b

theorem Lock.requestedTokens_request {t t' : TokenRing} (h : Lock cs t) {b : Orientation}
    {c : ComponentId} (hne : b ≠ .center ∨ cs ≠ c)
    (hboards : t'.boards = Function.update t.boards b ((t.boards b).requestCriticalSection c).1) :
    t'.requestedTokens cs = t.requestedTokens cs := by
  unfold requestedTokens
  rw [hboards]
  by_cases hb : b = .center
  · subst hb
    have hl : (t.boards .center).isLeader = true := by simp [h.isLeader]
    have hc : cs ≠ c := hne.resolve_left (not_not.mpr rfl)
    rw [Function.update_self, Sync.requestCriticalSection, if_pos hl,
      Sync.leaderRequest_other hc]
  · rw [Function.update_of_ne (Ne.symm hb)]

theorem Lock.request {t : TokenRing} (h : Lock cs t) (b : Orientation) (c : ComponentId) :
    Lock cs (t.request b c) := by
  have same := Sync.requestCriticalSection_identity (t.boards b) c
  obtain ⟨horient, hfirst⟩ := h.identity_move same
  have hinside : ∀ o, ((t.request b c).boards o).isInside = (t.boards o).isInside := by
    intro o
    by_cases ho : o = b
    · subst ho
      simp [TokenRing.request]
    · simp [TokenRing.request, ho]
  refine ⟨horient, hfirst, fun o => ?_, ?_, fun b' hwait => ?_⟩
  · rw [hinside o]
    exact h.inside o
  · exact balanced_move h.orientation horient rfl rfl rfl
      (Sync.requestCriticalSection_away (h.first b) c)
      (Sync.requestCriticalSection_balanced (t.boards b) c cs) h.balanced
  · by_cases hc : cs = c
    · subst hc
      by_cases hb : b = .center
      · subst hb
        exact h.served_of_request (by simp [TokenRing.request])
          (fun p hp => List.mem_append_right _ hp) b'
      · have hf : (t.boards b).isLeader = false := by simp [h.isLeader, hb]
        have hsent : ((t.boards b).requestCriticalSection cs).2 = [.tokenRequest cs] := by
          simp [Sync.requestCriticalSection, hf, Sync.followerRequest]
        by_cases hb' : b' = b
        · subst hb'
          left
          refine List.mem_append_right _ ?_
          rw [hsent]
          simpa using Ne.symm hb
        · have hold : t.waiting b' cs = true := by
            simpa [TokenRing.request, mark_apply, hb'] using hwait
          exact (h.served b' hold).frame (h.requestedTokens_request (.inl hb) rfl)
            (fun o => by rw [hinside o]) (fun p hp _ => List.mem_append_left _ hp)
    · have hold : t.waiting b' cs = true := by
        simpa [TokenRing.request, mark_apply, hc] using hwait
      exact (h.served b' hold).frame (h.requestedTokens_request (.inr hc) rfl)
        (fun o => by rw [hinside o]) (fun p hp _ => List.mem_append_left _ hp)

/-! ## Releases -/

/-- A release of another component's token leaves the leader's counter alone, and so does
one by a follower. -/
theorem Lock.requestedTokens_release {t t' : TokenRing} (h : Lock cs t) {b : Orientation}
    {c : ComponentId} {s : Sync} (hs : (t.boards b).SameIdentity s)
    (hleader : s.leader.requestedTokens = (t.boards b).leader.requestedTokens)
    (hne : b ≠ .center ∨ cs ≠ c)
    (hboards : t'.boards = Function.update t.boards b (s.release c).1) :
    t'.requestedTokens cs = t.requestedTokens cs := by
  unfold requestedTokens
  rw [hboards]
  by_cases hb : b = .center
  · subst hb
    have hl : s.isLeader = true := by simp [hs.isLeader, h.isLeader]
    have hc : cs ≠ c := hne.resolve_left (not_not.mpr rfl)
    rw [Function.update_self, Sync.release, if_pos hl, Sync.leaderRelease_other hc, hleader]
  · rw [Function.update_of_ne (Ne.symm hb)]

/-- The token going on from board `b` keeps every waiting board served but `b` itself: the
boards after `b` are next on its way, and the leader starts a new round if its counter says
that somebody asked. -/
theorem Lock.served_of_release {t t' : TokenRing} (h : Lock cs t) {b b' : Orientation}
    {s : Sync} (hs : (t.boards b).SameIdentity s)
    (hleader : s.leader.requestedTokens = (t.boards b).leader.requestedTokens)
    (hboards : t'.boards = Function.update t.boards b (s.release cs).1)
    (hsent : ∀ p ∈ syncBroadcast b (s.release cs).2, p ∈ t'.packets)
    (request : ⟨b', .center, .tokenRequest cs⟩ ∈ t.packets →
      ⟨b', .center, .tokenRequest cs⟩ ∈ t'.packets)
    (flight : ∀ p ∈ t.packets, p.live cs = true → p.dst.val ≤ b'.val →
      p ∈ t'.packets ∨ b.val < b'.val)
    (hserved : t.Served cs b') : t'.Served cs b' := by
  by_cases hlt : b.val < b'.val
  · have hb : b ≠ .center := by
      rintro rfl
      have := b'.val_le
      simp only [Orientation.val, Orientation.nDevices] at hlt this
      omega
    have hf : s.isLeader = false := by simp [hs.isLeader, h.isLeader, hb]
    have horient : s.orientation = b := hs.1.trans (h.orientation b)
    have hnext : b.next.val ≤ b'.val := by
      revert hlt hb
      cases b <;> cases b' <;> decide
    refine .inr (.inr (.inl ⟨⟨b, b.next, .tokenGrant cs b.next⟩, hsent _ ?_, ?_, hnext⟩))
    · simp [Sync.release, hf, Sync.followerRelease, horient, b.next_ne]
    · simp [SyncPacket.live]
  · refine hserved.mono request (fun hreq => ?_) (fun p hp hlive hle => ?_)
      (fun o ho hlt' => ?_)
    · by_cases hb : b = .center
      · subst hb
        have hl : s.isLeader = true := by simp [hs.isLeader, h.isLeader]
        have hfirst : s.leader.firstDeviceToGetToken = .north :=
          hs.2.2.trans (h.first .center)
        rw [Sync.release, if_pos hl] at hsent
        rcases Sync.leaderRelease_recorded s cs with hzero | hround
        · rw [hleader] at hzero
          rw [requestedTokens, hzero] at hreq
          exact absurd hreq (by decide)
        · rw [hfirst] at hround
          exact served_of_round (hsent ⟨.center, .north, .tokenGrant cs .north⟩
            (by simp [hround])) b'
      · exact .inr (.inl (by
          rw [h.requestedTokens_release hs hleader (.inl hb) hboards]
          exact hreq))
    · exact .inl ⟨p, (flight p hp hlive hle).resolve_right hlt, hlive, hle⟩
    · have ho' : o ≠ b := by
        rintro rfl
        exact hlt hlt'
      exact .inr ⟨o, by rw [hboards, Function.update_of_ne ho']; exact ho, hlt'⟩

theorem Lock.leave {t : TokenRing} (h : Lock cs t) {b : Orientation} {c : ComponentId}
    (htask : t.task b = some c) (hin : (t.boards b).isInside c = true) :
    Lock cs (t.leave b c) := by
  have same : (t.boards b).SameIdentity ((t.boards b).setInside c false) := ⟨rfl, rfl, rfl⟩
  have same' : (t.boards b).SameIdentity ((t.boards b).leaveCriticalSection c).1 :=
    Sync.release_identity ((t.boards b).setInside c false) c
  obtain ⟨horient, hfirst⟩ := h.identity_move same'
  have hinside : ∀ o, ((t.leave b c).boards o).isInside cs =
      if o = b ∧ cs = c then false else (t.boards o).isInside cs := by
    intro o
    by_cases ho : o = b
    · subst ho
      by_cases hc : cs = c
      · subst hc
        simp [TokenRing.leave, Sync.leaveCriticalSection, Sync.setInside]
      · simp [TokenRing.leave, Sync.leaveCriticalSection, Sync.setInside, hc]
    · simp [TokenRing.leave, ho]
  have hout : cs = c → (t.boards b).isLeader = true →
      (t.boards b).leader.isTokenOut c = true := by
    rintro rfl hl
    have hb : b = .center := by simpa [h.isLeader] using hl
    subst hb
    by_contra hno
    have hzero : t.liveTokens cs = 0 := by rw [h.balanced, isTokenOut, if_neg hno]
    have hheld : (t.boards .center).held cs = 1 := by simp [Sync.held, hin]
    have hle := Orientation.le_total (fun o => (t.boards o).held cs) .center
    unfold liveTokens at hzero
    simp only [hheld] at hle
    omega
  have haway : ∀ hfirst, ((t.boards b).setInside c false).SendsAway
      (((t.boards b).setInside c false).release c).2 := fun hfirst => Sync.release_away hfirst c
  refine ⟨horient, hfirst, fun o => ?_, ?_, fun b' hwait => ?_⟩
  · rw [hinside o]
    by_cases ho : o = b
    · subst ho
      by_cases hc : cs = c
      · simp [TokenRing.leave, hc]
      · have hno : (t.boards o).isInside cs = false := by
          rw [h.inside o, htask]
          simpa using fun heq => hc heq.symm
        simp [TokenRing.leave, hc, hno]
    · simp [TokenRing.leave, ho, h.inside o]
  · exact balanced_move h.orientation horient rfl rfl rfl
      (haway (h.first b))
      (Sync.leaveCriticalSection_balanced (t.boards b) c cs (fun _ => hin) hout) h.balanced
  · by_cases hc : cs = c
    · subst hc
      exact h.served_of_release same rfl rfl (fun p hp => List.mem_append_right _ hp)
        (List.mem_append_left _) (fun p hp _ _ => .inl (List.mem_append_left _ hp))
        (h.served b' hwait)
    · exact (h.served b' hwait).frame (h.requestedTokens_release same rfl (.inr hc) rfl)
        (fun o => by rw [hinside o, if_neg fun hand => hc hand.2])
        (fun p hp _ => List.mem_append_left _ hp)

/-! ## Packets -/

theorem visits_eq (p : SyncPacket) (c : ComponentId) :
    p.visits = some c ↔ p.msg = .tokenGrant c p.dst := by
  obtain ⟨src, dst, msg⟩ := p
  cases msg with
  | tokenRequest c' => simp [SyncPacket.visits]
  | tokenGrant c' d =>
      by_cases hd : d = dst
      · simp [SyncPacket.visits, hd]
      · simp [SyncPacket.visits, hd]

/-- Who still waits after a packet was handled: nobody where the token just came by. -/
theorem deliver_waiting {t : TokenRing} {p : SyncPacket} {b : Orientation}
    (h : (t.deliver p).waiting b cs = true) :
    t.waiting b cs = true ∧ ¬ (p.live cs = true ∧ b = p.dst) := by
  change markVisit t.waiting p b cs = true at h
  cases hv : p.visits with
  | none =>
      simp only [markVisit, hv] at h
      refine ⟨h, fun ⟨hlive, _⟩ => ?_⟩
      have hc' : p.msg = .tokenGrant cs p.dst := by simpa [SyncPacket.live] using hlive
      rw [(visits_eq p cs).mpr hc'] at hv
      cases hv
  | some c =>
      simp only [markVisit, hv, mark_apply] at h
      split at h
      · cases h
      · next hne =>
        refine ⟨h, fun ⟨hlive, hb⟩ => hne ⟨hb, ?_⟩⟩
        have hc' : p.msg = .tokenGrant cs p.dst := by simpa [SyncPacket.live] using hlive
        rw [(visits_eq p c).mp hv] at hc'
        exact (SyncMsg.tokenGrant.inj hc').1.symm

private theorem mem_deliver {t : TokenRing} {p q : SyncPacket} (hq : q ∈ t.packets)
    (hne : q ≠ p) : q ∈ (t.deliver p).packets :=
  List.mem_append_left _ ((List.mem_erase_of_ne hne).mpr hq)

private theorem deliver_boards (t : TokenRing) (src dst : Orientation) (msg : SyncMsg) :
    (t.deliver ⟨src, dst, msg⟩).boards =
      Function.update t.boards dst ((t.boards dst).onSiblingMessage msg).sync := rfl

private theorem mem_deliver_sent {t : TokenRing} {p q : SyncPacket}
    (hq : q ∈ syncBroadcast p.dst ((t.boards p.dst).onSiblingMessage p.msg).sent) :
    q ∈ (t.deliver p).packets :=
  List.mem_append_right _ hq

/-- A packet that is neither the board's request nor a live token serves whom it served. -/
theorem Served.deliver {t : TokenRing} {p : SyncPacket} {b : Orientation} (h : t.Served cs b)
    (counter : (t.deliver p).requestedTokens cs = t.requestedTokens cs)
    (inside : ((t.boards p.dst).onSiblingMessage p.msg).sync.isInside cs =
      (t.boards p.dst).isInside cs)
    (request : p ≠ ⟨b, .center, .tokenRequest cs⟩) (live : p.live cs = false) :
    (t.deliver p).Served cs b := by
  refine h.frame counter (fun o => ?_) (fun q hq hor => ?_)
  · by_cases ho : o = p.dst
    · subst ho
      simpa [TokenRing.deliver] using inside
    · simp [TokenRing.deliver, ho]
  · refine mem_deliver hq ?_
    rintro rfl
    rcases hor with hq' | hlive
    · exact request hq'
    · rw [live] at hlive
      cases hlive

private theorem live_grant {src dst d : Orientation} {c : ComponentId}
    (h : ¬ (cs = c ∧ d = dst)) :
    SyncPacket.live cs ⟨src, dst, .tokenGrant c d⟩ = false := by
  have h' : ¬ (c = cs ∧ d = dst) := fun ⟨hc, hd⟩ => h ⟨hc.symm, hd⟩
  simpa [SyncPacket.live] using h'

/-- The leader records a request; the other boards ignore it. -/
theorem Lock.deliver_request {t : TokenRing} (h : Lock cs t) {src dst b : Orientation}
    {c : ComponentId} (hserved : t.Served cs b) :
    (t.deliver ⟨src, dst, .tokenRequest c⟩).Served cs b := by
  by_cases hdst : dst = .center
  · subst hdst
    have hl : (t.boards .center).isLeader = true := by simp [h.isLeader]
    have hturn : (t.boards .center).onSiblingMessage (.tokenRequest c) =
        ⟨((t.boards .center).requestCriticalSection c).1,
          ((t.boards .center).requestCriticalSection c).2, none⟩ := by
      simp [Sync.onSiblingMessage, Sync.onTokenRequest, hl]
    by_cases hc : cs = c
    · subst hc
      refine h.served_of_request ?_ (fun q hq => mem_deliver_sent ?_) b
      · simp [TokenRing.deliver, hturn]
      · rw [hturn]
        exact hq
    · refine hserved.deliver ?_ ?_ (by simp [Ne.symm hc]) (by simp [SyncPacket.live])
      · exact h.requestedTokens_request (.inr hc) (by rw [deliver_boards, hturn])
      · rw [hturn, Sync.requestCriticalSection_isInside]
  · have hf : (t.boards dst).isLeader = false := by simp [h.isLeader, hdst]
    have hturn : (t.boards dst).onSiblingMessage (.tokenRequest c) =
        ⟨t.boards dst, [], none⟩ := by
      simp [Sync.onSiblingMessage, Sync.onTokenRequest, hf]
    refine hserved.deliver ?_ (by rw [hturn]) (by simp [hdst]) (by simp [SyncPacket.live])
    rw [requestedTokens, deliver_boards, Function.update_of_ne (Ne.symm hdst)]
    rfl

/-- The board that enters holds the token that was on its way. -/
theorem Served.deliver_entry {t : TokenRing} {src d b : Orientation} {c : ComponentId}
    (hserved : t.Served cs b)
    (hturn : (t.boards d).onTokenGrant c d = ⟨(t.boards d).setInside c true, [], some c⟩)
    (hb : ¬ (cs = c ∧ b = d)) :
    (t.deliver ⟨src, d, .tokenGrant c d⟩).Served cs b := by
  have hboards : (t.deliver ⟨src, d, .tokenGrant c d⟩).boards =
      Function.update t.boards d ((t.boards d).setInside c true) := by
    rw [deliver_boards, Sync.onSiblingMessage, hturn]
  have hcounter : (t.deliver ⟨src, d, .tokenGrant c d⟩).requestedTokens cs =
      t.requestedTokens cs := by
    rw [requestedTokens, hboards]
    by_cases hd : d = .center
    · subst hd
      rw [Function.update_self]
      rfl
    · rw [Function.update_of_ne (Ne.symm hd)]
      rfl
  by_cases hc : cs = c
  · subst hc
    have hinside : ((t.deliver ⟨src, d, .tokenGrant cs d⟩).boards d).isInside cs = true := by
      rw [hboards, Function.update_self]
      simp [Sync.setInside]
    have hne : d.val ≠ b.val := fun hv => hb ⟨rfl, (Orientation.val_injective hv).symm⟩
    refine hserved.mono (fun hq => mem_deliver hq (by simp))
      (fun hreq => .inr (.inl (by rw [hcounter]; exact hreq)))
      (fun q hq hlive hle => ?_) (fun o ho hlt => ?_)
    · by_cases hqp : q = ⟨src, d, .tokenGrant cs d⟩
      · subst hqp
        exact .inr ⟨d, hinside, Nat.lt_of_le_of_ne hle hne⟩
      · exact .inl ⟨q, mem_deliver hq hqp, hlive, hle⟩
    · by_cases hod : o = d
      · subst hod
        exact .inr ⟨o, hinside, hlt⟩
      · refine .inr ⟨o, ?_, hlt⟩
        rw [hboards, Function.update_of_ne hod]
        exact ho
  · refine hserved.deliver hcounter ?_ (by simp) (live_grant fun hcd => hc hcd.1)
    rw [Sync.onSiblingMessage, hturn]
    simp [Sync.setInside, hc]

/-- A board without the callback passes the token on. -/
theorem Lock.deliver_pass {t : TokenRing} (h : Lock cs t) {src d b : Orientation}
    {c : ComponentId}
    (hturn : (t.boards d).onTokenGrant c d =
      ⟨((t.boards d).release c).1, ((t.boards d).release c).2, none⟩)
    (hserved : t.Served cs b) (hb : ¬ (cs = c ∧ b = d)) :
    (t.deliver ⟨src, d, .tokenGrant c d⟩).Served cs b := by
  have same : (t.boards d).SameIdentity (t.boards d) := .refl _
  have hboards : (t.deliver ⟨src, d, .tokenGrant c d⟩).boards =
      Function.update t.boards d ((t.boards d).release c).1 := by
    rw [deliver_boards, Sync.onSiblingMessage, hturn]
  by_cases hc : cs = c
  · subst hc
    have hne : d.val ≠ b.val := fun hv => hb ⟨rfl, (Orientation.val_injective hv).symm⟩
    refine h.served_of_release same rfl hboards (fun q hq => mem_deliver_sent ?_)
      (fun hq => mem_deliver hq (by simp)) (fun q hq hlive hle => ?_) hserved
    · rw [Sync.onSiblingMessage, hturn]
      exact hq
    · by_cases hqp : q = ⟨src, d, .tokenGrant cs d⟩
      · subst hqp
        exact .inr (Nat.lt_of_le_of_ne hle hne)
      · exact .inl (mem_deliver hq hqp)
  · refine hserved.deliver (h.requestedTokens_release same rfl (.inr hc) hboards) ?_ (by simp)
      (live_grant fun hcd => hc hcd.1)
    rw [Sync.onSiblingMessage, hturn]
    simp

theorem Lock.deliver_served {t : TokenRing} (h : Lock cs t) {p : SyncPacket} {b : Orientation}
    (hserved : t.Served cs b) (hb : ¬ (p.live cs = true ∧ b = p.dst)) :
    (t.deliver p).Served cs b := by
  obtain ⟨src, dst, msg⟩ := p
  cases msg with
  | tokenRequest c => exact h.deliver_request hserved
  | tokenGrant c d =>
      have hor := h.orientation dst
      rcases Sync.onTokenGrant_cases (t.boards dst) c d with ⟨hd, hturn⟩ | ⟨hd, hturn⟩ |
        ⟨hd, hturn⟩
      · -- a grant for another board
        rw [hor] at hd
        refine hserved.deliver ?_ ?_ (by simp) (live_grant fun hcd => hd hcd.2)
        · rw [requestedTokens, deliver_boards, Sync.onSiblingMessage, hturn,
            Function.update_eq_self]
          rfl
        · rw [Sync.onSiblingMessage, hturn]
      · -- the callback starts
        rw [hor] at hd
        subst hd
        have hvisit : ¬ (cs = c ∧ b = d) := fun h =>
          hb ⟨by simp [SyncPacket.live, h.1], h.2⟩
        exact hserved.deliver_entry hturn hvisit
      · -- no callback: the token goes on
        rw [hor] at hd
        subst hd
        have hvisit : ¬ (cs = c ∧ b = d) := fun h =>
          hb ⟨by simp [SyncPacket.live, h.1], h.2⟩
        exact h.deliver_pass hturn hserved hvisit

theorem Lock.deliver {t : TokenRing} (h : Lock cs t) {p : SyncPacket} (hp : p ∈ t.packets)
    (hidle : t.task p.dst = none) : Lock cs (t.deliver p) := by
  have same := Sync.onSiblingMessage_identity (t.boards p.dst) p.msg
  obtain ⟨horient, hfirst⟩ := h.identity_move same
  have hor := h.orientation p.dst
  have hout : (t.boards p.dst).isInside cs = false := by simp [h.inside, hidle]
  have hlive : p.live cs = decide (p.msg = .tokenGrant cs p.dst) := rfl
  have hrest : (t.packets.erase p).countP (SyncPacket.live cs) +
      (t.boards p.dst).taken cs p.msg = t.packets.countP (SyncPacket.live cs) := by
    rw [List.countP_erase, Sync.taken, hor]
    by_cases hm : p.msg = .tokenGrant cs p.dst
    · have hpos : 0 < t.packets.countP (SyncPacket.live cs) :=
        List.countP_pos_iff.mpr ⟨p, hp, by simp [hlive, hm]⟩
      rw [if_pos ⟨hp, by simp [hlive, hm]⟩, if_pos hm]
      omega
    · rw [if_neg (by simp [hlive, hm]), if_neg hm]
      rfl
  refine ⟨horient, hfirst, fun o => ?_, ?_, fun b hwait => ?_⟩
  · by_cases ho : o = p.dst
    · subst ho
      simp [TokenRing.deliver, Sync.onSiblingMessage_isInside, hout]
    · simp [TokenRing.deliver, ho, h.inside o]
  · refine balanced_move h.orientation horient rfl rfl hrest
      (Sync.onSiblingMessage_away (h.first p.dst) p.msg)
      (Sync.onSiblingMessage_balanced (t.boards p.dst) p.msg cs (fun _ => hout)
        fun hm hl => ?_) h.balanced
    rw [hor] at hm
    have hcenter : p.dst = .center := by simpa [h.isLeader] using hl
    have hpos : 0 < t.packets.countP (SyncPacket.live cs) :=
      List.countP_pos_iff.mpr ⟨p, hp, by simp [hlive, hm]⟩
    have hbal := h.balanced
    by_contra hno
    rw [hcenter] at hno
    rw [isTokenOut, if_neg hno, liveTokens] at hbal
    omega
  · obtain ⟨hold, hb⟩ := deliver_waiting hwait
    exact h.deliver_served (h.served b hold) hb

/-! ## Runs -/

theorem start_lock (registered : Orientation → ComponentId → Bool) (cs : ComponentId) :
    Lock cs (start registered) where
  orientation _ := rfl
  first _ := rfl
  inside _ := rfl
  balanced := rfl
  served _ h := by cases h

theorem Lock.step {t u : TokenRing} (h : ∀ cs, Lock cs t) {l : RingLabel}
    (hs : tokenRing.step t l = some u) (cs : ComponentId) : Lock cs u := by
  cases l with
  | request b c =>
      cases hs
      exact (h cs).request b c
  | deliver p =>
      simp only [tokenRing, TokenRing.step] at hs
      split at hs
      · next hp =>
        cases hs
        exact (h cs).deliver hp.1 hp.2
      · cases hs
  | leave b =>
      simp only [tokenRing, TokenRing.step, Option.map_eq_some_iff] at hs
      obtain ⟨c, htask, rfl⟩ := hs
      exact (h cs).leave htask (by simp [(h c).inside b, htask])

theorem Lock.run {registered : Orientation → ComponentId → Bool} {t : TokenRing}
    (run : tokenRing.Reaches (start registered) t) (cs : ComponentId) : Lock cs t :=
  have all : ∀ cs, Lock cs t := by
    induction run with
    | refl => exact start_lock registered
    | tail _ _ hs ih => exact Lock.step ih hs
  all cs

/-- Two boards inside the callback would be two tokens. -/
theorem Lock.unique {t : TokenRing} (h : Lock cs t) {a b : Orientation}
    (ha : (t.boards a).isInside cs = true) (hb : (t.boards b).isInside cs = true) : a = b := by
  by_contra hne
  have htwo : 2 ≤ Orientation.total fun o => (t.boards o).held cs :=
    Orientation.two_le_total hne (by simp [Sync.held, ha]) (by simp [Sync.held, hb])
  have hbal := h.balanced
  unfold liveTokens at hbal
  split at hbal <;> omega

end TokenRing

/-- The lock of every component in every reachable state: as many live tokens as the leader
has out, at most one board inside, and no request forgotten. -/
theorem tokenRing_lock (registered : Orientation → ComponentId → Bool) {t : TokenRing}
    (run : tokenRing.Reaches (TokenRing.start registered) t) (csId : ComponentId) :
    t.liveTokens csId = (if t.isTokenOut csId then 1 else 0) ∧
      (∀ a b, (t.boards a).isInside csId = true → (t.boards b).isInside csId = true → a = b) ∧
      ∀ b, t.waiting b csId = true → t.Served csId b :=
  have h := TokenRing.Lock.run run csId
  ⟨h.balanced, fun _ _ => h.unique, h.served⟩

/-- North asks, gets the token and enters; then east and the leader ask. -/
def busyRing : List RingLabel :=
  [.request .north .routing, .deliver ⟨.north, .center, .tokenRequest .routing⟩,
    .deliver ⟨.center, .north, .tokenGrant .routing .north⟩, .request .east .routing,
    .request .center .routing]

theorem busyRing_runs :
    (tokenRing.run (TokenRing.start fun _ _ => true) busyRing).isSome = true := by decide

theorem tokenRing_lock_busy :
    let t := (tokenRing.run (TokenRing.start fun _ _ => true) busyRing).get busyRing_runs
    t.liveTokens .routing = (if t.isTokenOut .routing then 1 else 0) ∧
      (∀ a b, (t.boards a).isInside .routing = true →
        (t.boards b).isInside .routing = true → a = b) ∧
      ∀ b, t.waiting b .routing = true → t.Served .routing b :=
  tokenRing_lock (fun _ _ => true)
    (Machine.reaches_of_run (Option.some_get busyRing_runs).symm) .routing

example :
    let t := (tokenRing.run (TokenRing.start fun _ _ => true) busyRing).get busyRing_runs
    t.liveTokens .routing = 1 ∧ (t.boards .north).isInside .routing = true ∧
      t.waiting .east .routing = true ∧ t.requestedTokens .routing = 1 := by decide

end I4A
