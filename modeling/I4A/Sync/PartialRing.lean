import Mathlib.Data.Nat.Find
import I4A.Sync.TokenRing

/-! # The lock on a smaller ring

The README allows rings of two to five boards. The boards that are absent send
nothing and get no copy of a broadcast; the others run the code of the full
ring, whose token goes from board to board by number.
-/

namespace I4A

/-- The board that a label moves. -/
def RingLabel.board : RingLabel → Orientation
  | .request b _ => b
  | .deliver p => p.dst
  | .leave b => b

namespace TokenRing

variable (present : Orientation → Bool) (csId : ComponentId)

/-- Without the copies for absent boards. -/
def keep (t : TokenRing) : TokenRing :=
  { t with packets := t.packets.filter fun p => present p.dst }

/-- A step of a present board; what it broadcasts goes to the other boards present. -/
def stepAmong (t : TokenRing) (l : RingLabel) : Option TokenRing :=
  if present l.board then (t.step l).map (keep present) else none

/-- There is a live token: a grant that a present board has still to handle, or a present
board inside its critical section. -/
def Alive (t : TokenRing) : Prop :=
  (∃ p ∈ t.packets, p.live csId = true ∧ present p.dst = true) ∨
    ∃ o, present o = true ∧ (t.boards o).isInside csId = true

end TokenRing

/-- The ring of the boards that are present. -/
def partialRing (present : Orientation → Bool) : Machine TokenRing RingLabel :=
  ⟨TokenRing.stepAmong present⟩

namespace TokenRing

/-- The law for one component on one ring: a token that is out is alive. -/
def Survives (registered : Orientation → ComponentId → Bool) (present : Orientation → Bool)
    (csId : ComponentId) : Prop :=
  ∀ t, (partialRing present).Reaches (start registered) t → t.isTokenOut csId = true →
    t.Alive present csId

variable {registered : Orientation → ComponentId → Bool} {present : Orientation → Bool}
  {cs : ComponentId} {t u : TokenRing}

/-! ## The full ring -/

theorem keep_all (full : ∀ o, present o = true) (t : TokenRing) : t.keep present = t := by
  simp [keep, full]

theorem reaches_tokenRing (full : ∀ o, present o = true)
    (run : (partialRing present).Reaches t u) : tokenRing.Reaches t u := by
  induction run with
  | refl => exact .refl _
  | @tail v w l _ _ hs ih =>
      refine ih.tail (l := l) trivial ?_
      simp only [partialRing, stepAmong, full, if_true, Option.map_eq_some_iff] at hs
      obtain ⟨w', hw', rfl⟩ := hs
      rw [keep_all full]
      exact hw'

theorem exists_pos_of_total {f : Orientation → Nat} (h : 0 < Orientation.total f) :
    ∃ o, 0 < f o := by
  by_contra hnone
  have hzero : ∀ o, f o = 0 := fun o => Nat.eq_zero_of_not_pos fun ho => hnone ⟨o, ho⟩
  simp [Orientation.total, hzero] at h

theorem Lock.alive (h : Lock cs t) (full : ∀ o, present o = true)
    (out : t.isTokenOut cs = true) : t.Alive present cs := by
  have hone : t.liveTokens cs = 1 := by rw [h.balanced, if_pos out]
  unfold liveTokens at hone
  by_cases hflight : 0 < t.packets.countP (SyncPacket.live cs)
  · obtain ⟨p, hp, hlive⟩ := List.countP_pos_iff.mp hflight
    exact .inl ⟨p, hp, hlive, full p.dst⟩
  · obtain ⟨o, ho⟩ := exists_pos_of_total
      (f := fun o => (t.boards o).held cs) (by omega)
    refine .inr ⟨o, full o, ?_⟩
    by_contra hout
    simp [Sync.held, hout] at ho

/-! ## The way of the first token -/

/-- The component's only token has been sent to board `d`, and nobody else moves. -/
structure Passing (present : Orientation → Bool) (csId : ComponentId) (d : Orientation)
    (t : TokenRing) : Prop where
  orientation : ∀ o, (t.boards o).orientation = o
  idle : ∀ o, t.task o = none
  outside : ∀ o, (t.boards o).isInside csId = false
  out : t.isTokenOut csId = true
  kept : ∀ p ∈ t.packets, present p.dst = true
  only : ∀ p ∈ t.packets, p.live csId = true → p.dst = d
  once : t.packets.countP (SyncPacket.live csId) ≤ 1
  sent : present d = true → ∃ src, ⟨src, d, .tokenGrant csId d⟩ ∈ t.packets

/-- A token sent to an absent board is lost. -/
theorem Passing.lost {d : Orientation} (h : Passing present cs d t) (absent : present d = false) :
    ¬ t.Alive present cs := by
  intro alive
  rcases alive with ⟨p, hp, hlive, hpresent⟩ | ⟨o, -, hinside⟩
  · rw [h.only p hp hlive, absent] at hpresent
    cases hpresent
  · rw [h.outside o] at hinside
    cases hinside

/-- Packets after board `d` has passed the token on. -/
def passedOn (present : Orientation → Bool) (csId : ComponentId) (packets : List SyncPacket)
    (src d : Orientation) : List SyncPacket :=
  (packets.erase ⟨src, d, .tokenGrant csId d⟩ ++
    syncBroadcast d [.tokenGrant csId d.next]).filter fun p => present p.dst

theorem Passing.passedOn {src d : Orientation} (h : Passing present cs d t)
    (hp : ⟨src, d, .tokenGrant cs d⟩ ∈ t.packets) (hcenter : d ≠ .center)
    (hpackets : u.packets = passedOn present cs t.packets src d)
    (hboards : ∀ o, o ≠ d → u.boards o = t.boards o)
    (hsame : (t.boards d).SameIdentity (u.boards d))
    (hinside : (u.boards d).isInside cs = false) (hidle : ∀ o, u.task o = none) :
    Passing present cs d.next u := by
  have hzero : (t.packets.erase ⟨src, d, .tokenGrant cs d⟩).countP (SyncPacket.live cs) = 0 := by
    have honce := h.once
    rw [List.countP_erase, if_pos ⟨hp, by simp [SyncPacket.live]⟩]
    omega
  have hone : (syncBroadcast d [.tokenGrant cs d.next]).countP (SyncPacket.live cs) = 1 := by
    rw [live_syncBroadcast]
    · simp
    · intro d' hd'
      simp only [List.mem_singleton, SyncMsg.tokenGrant.injEq, true_and] at hd'
      subst hd'
      exact d.next_ne
  have hmem : ∀ p ∈ u.packets, present p.dst = true ∧
      (p ∈ t.packets.erase ⟨src, d, .tokenGrant cs d⟩ ∨
        p ∈ syncBroadcast d [.tokenGrant cs d.next]) := by
    intro p hp'
    rw [hpackets, TokenRing.passedOn, List.mem_filter, List.mem_append] at hp'
    exact ⟨hp'.2, hp'.1⟩
  refine ⟨fun o => ?_, hidle, fun o => ?_, ?_, fun p hp' => (hmem p hp').1, fun p hp' hlive => ?_,
    ?_, fun hnext => ⟨d, ?_⟩⟩
  · by_cases ho : o = d
    · subst ho
      rw [hsame.1, h.orientation]
    · rw [hboards o ho, h.orientation]
  · by_cases ho : o = d
    · subst ho
      exact hinside
    · rw [hboards o ho, h.outside]
  · rw [isTokenOut, hboards .center (Ne.symm hcenter)]
    exact h.out
  · rcases (hmem p hp').2 with hold | hnew
    · have hpos := List.countP_pos_iff.mpr ⟨p, hold, hlive⟩
      omega
    · have hmsg := (mem_syncBroadcast.mp hnew).1
      simp only [List.mem_singleton] at hmsg
      simp only [SyncPacket.live, hmsg, decide_eq_true_eq, SyncMsg.tokenGrant.injEq,
        true_and] at hlive
      exact hlive.symm
  · rw [hpackets, TokenRing.passedOn]
    have hle := List.filter_sublist (p := fun p => present p.dst)
      (l := t.packets.erase ⟨src, d, .tokenGrant cs d⟩ ++
        syncBroadcast d [.tokenGrant cs d.next])
    have hcount := hle.countP_le (p := SyncPacket.live cs)
    rw [List.countP_append, hzero, hone] at hcount
    exact hcount
  · rw [hpackets, TokenRing.passedOn, List.mem_filter, List.mem_append]
    exact ⟨.inr (mem_syncBroadcast.mpr ⟨by simp, d.next_ne, rfl⟩), hnext⟩

/-- A present board other than the leader takes the token and passes it on. -/
theorem Passing.next {d : Orientation} (h : Passing present cs d t) (here : present d = true)
    (hcenter : d ≠ .center) :
    ∃ u, (partialRing present).Reaches t u ∧ Passing present cs d.next u := by
  obtain ⟨src, hp⟩ := h.sent here
  have hfollower : ∀ s : Sync, s.orientation = d → s.isLeader = false := fun s hs => by
    simp [Sync.isLeader, hs, hcenter]
  have hdeliver : (partialRing present).step t (.deliver ⟨src, d, .tokenGrant cs d⟩) =
      some ((t.deliver ⟨src, d, .tokenGrant cs d⟩).keep present) := by
    simp [partialRing, stepAmong, RingLabel.board, here, TokenRing.step, hp, h.idle]
  have hor := h.orientation d
  rcases Sync.onTokenGrant_cases (t.boards d) cs d with ⟨hd, -⟩ | ⟨-, hturn⟩ | ⟨-, hturn⟩
  · exact absurd hor.symm hd
  · -- the callback runs in between
    have hleave : (partialRing present).step
        ((t.deliver ⟨src, d, .tokenGrant cs d⟩).keep present) (.leave d) =
        some ((((t.deliver ⟨src, d, .tokenGrant cs d⟩).keep present).leave d cs).keep present) := by
      simp [partialRing, stepAmong, RingLabel.board, here, TokenRing.step, TokenRing.deliver, keep,
        Sync.onSiblingMessage, hturn]
    refine ⟨_, (Machine.Executes.single trivial hdeliver).tail trivial hleave, ?_⟩
    have hf := hfollower (((t.boards d).setInside cs true).setInside cs false) hor
    have hreturn : ((t.boards d).setInside cs true).leaveCriticalSection cs =
        (((t.boards d).setInside cs true).setInside cs false, [.tokenGrant cs d.next]) := by
      rw [Sync.leaveCriticalSection, Sync.release, hf, if_neg (by decide), Sync.followerRelease]
      rw [show (((t.boards d).setInside cs true).setInside cs false).orientation = d from hor]
    refine h.passedOn hp hcenter ?_ (fun o ho => ?_) ?_ ?_ (fun o => ?_)
    · simp [TokenRing.passedOn, keep, TokenRing.leave, TokenRing.deliver, Sync.onSiblingMessage,
        hturn, hreturn, syncBroadcast, List.filter_append, List.filter_filter]
    · simp [keep, TokenRing.leave, TokenRing.deliver, ho]
    · simp only [keep, TokenRing.leave, TokenRing.deliver, Sync.onSiblingMessage, hturn, hreturn,
        Function.update_self]
      exact ⟨rfl, rfl, rfl⟩
    · simp only [keep, TokenRing.leave, TokenRing.deliver, Sync.onSiblingMessage, hturn, hreturn,
        Function.update_self]
      exact Function.update_self _ _ _
    · by_cases ho : o = d
      · subst ho
        simp [keep, TokenRing.leave]
      · simp [keep, TokenRing.leave, TokenRing.deliver, ho, h.idle]
  · -- no callback is registered
    refine ⟨_, .single trivial hdeliver, ?_⟩
    have hf := hfollower (t.boards d) hor
    refine h.passedOn hp hcenter ?_ (fun o ho => ?_) ?_ ?_ (fun o => ?_)
    · simp [TokenRing.passedOn, keep, TokenRing.deliver, Sync.onSiblingMessage, hturn,
        Sync.release, hf, Sync.followerRelease, hor]
    · simp [keep, TokenRing.deliver, ho]
    · simp only [keep, TokenRing.deliver, Sync.onSiblingMessage, hturn, Function.update_self]
      exact Sync.release_identity _ _
    · simp [keep, TokenRing.deliver, Sync.onSiblingMessage, hturn, h.outside]
    · by_cases ho : o = d
      · subst ho
        simp [keep, TokenRing.deliver, Sync.onSiblingMessage, hturn]
      · simp [keep, TokenRing.deliver, ho, h.idle]

/-- The first request of the leader sends the token to the first board. -/
theorem passing_first (registered : Orientation → ComponentId → Bool)
    (leader : present .center = true) (cs : ComponentId) :
    ∃ u, (partialRing present).Reaches (start registered) u ∧ Passing present cs .north u := by
  have hstep : (partialRing present).step (start registered) (.request .center cs) =
      some (((start registered).request .center cs).keep present) := by
    simp [partialRing, stepAmong, RingLabel.board, leader, TokenRing.step]
  refine ⟨_, .single trivial hstep, ?_⟩
  have hsent : ((start registered).boards .center).requestCriticalSection cs =
      (((start registered).boards .center).setTokenOut cs true, [.tokenGrant cs .north]) := rfl
  have hpackets : (((start registered).request .center cs).keep present).packets =
      (syncBroadcast .center [.tokenGrant cs .north]).filter fun p => present p.dst := rfl
  refine ⟨fun o => ?_, fun o => rfl, fun o => ?_, ?_, fun p hp => ?_, fun p hp hlive => ?_, ?_,
    fun hnorth => ⟨.center, ?_⟩⟩
  · cases o <;> rfl
  · cases o <;> rfl
  · simp [isTokenOut, keep, TokenRing.request, hsent, Sync.setTokenOut]
  · rw [hpackets, List.mem_filter] at hp
    exact hp.2
  · rw [hpackets, List.mem_filter] at hp
    have hmsg := (mem_syncBroadcast.mp hp.1).1
    simp only [List.mem_singleton] at hmsg
    simp only [SyncPacket.live, hmsg, decide_eq_true_eq, SyncMsg.tokenGrant.injEq,
      true_and] at hlive
    exact hlive.symm
  · rw [hpackets]
    have hcount := (List.filter_sublist (p := fun p => present p.dst)
      (l := syncBroadcast .center [.tokenGrant cs .north])).countP_le (p := SyncPacket.live cs)
    rw [live_syncBroadcast (by simp)] at hcount
    simpa using hcount
  · rw [hpackets, List.mem_filter]
    exact ⟨mem_syncBroadcast.mpr ⟨by simp, Orientation.next_ne .center, rfl⟩, hnorth⟩

/-- The token gets as far as the first absent board. -/
theorem passing_reached (registered : Orientation → ComponentId → Bool)
    (leader : present .center = true) (cs : ComponentId) (o : Orientation)
    (before : ∀ o', o'.val < o.val → present o' = true) :
    ∃ u, (partialRing present).Reaches (start registered) u ∧ Passing present cs o u := by
  have further : ∀ d : Orientation, d ≠ .center → d.val < o.val →
      (∃ u, (partialRing present).Reaches (start registered) u ∧ Passing present cs d u) →
      ∃ u, (partialRing present).Reaches (start registered) u ∧ Passing present cs d.next u := by
    intro d hcenter hlt reached
    obtain ⟨u, run, hpassing⟩ := reached
    obtain ⟨v, run', hpassing'⟩ := hpassing.next (before d hlt) hcenter
    exact ⟨v, run.trans run', hpassing'⟩
  have first := passing_first registered leader cs
  cases o with
  | north => exact first
  | south => exact further .north (by decide) (by decide) first
  | east =>
      exact further .south (by decide) (by decide) (further .north (by decide) (by decide) first)
  | west =>
      exact further .east (by decide) (by decide)
        (further .south (by decide) (by decide) (further .north (by decide) (by decide) first))
  | center =>
      exact further .west (by decide) (by decide) (further .east (by decide) (by decide)
        (further .south (by decide) (by decide) (further .north (by decide) (by decide) first)))

/-- The first absent board in token order. -/
theorem exists_first_absent {o : Orientation} (absent : present o = false) :
    ∃ d, present d = false ∧ ∀ o', o'.val < d.val → present o' = true := by
  classical
  have hexists : ∃ n, ∃ d : Orientation, d.val = n ∧ present d = false := ⟨_, o, rfl, absent⟩
  obtain ⟨d, hval, hd⟩ := Nat.find_spec hexists
  refine ⟨d, hd, fun o' hlt => ?_⟩
  rw [hval] at hlt
  have hmin := Nat.find_min hexists hlt
  simp only [not_exists, not_and, Bool.not_eq_false] at hmin
  exact hmin o' rfl

end TokenRing

/-- A ring with the leader keeps its tokens alive exactly if no board is absent. -/
theorem partialRing_survives_iff (registered : Orientation → ComponentId → Bool)
    (present : Orientation → Bool) (leader : present .center = true) (csId : ComponentId) :
    TokenRing.Survives registered present csId ↔ ∀ o, present o = true := by
  constructor
  · intro survives o
    by_contra hno
    obtain ⟨d, absent, before⟩ := TokenRing.exists_first_absent (Bool.not_eq_true _ ▸ hno)
    obtain ⟨u, run, hpassing⟩ := TokenRing.passing_reached registered leader csId d before
    exact hpassing.lost absent (survives u run hpassing.out)
  · intro full t run out
    exact (TokenRing.Lock.run (TokenRing.reaches_tokenRing full run) csId).alive full out

/-- The five boards of a full node. -/
theorem partialRing_survives_full :
    TokenRing.Survives (fun _ _ => true) (fun _ => true) .routing :=
  (partialRing_survives_iff (fun _ _ => true) (fun _ => true) rfl .routing).mpr fun _ => rfl

/-- The README's example of three boards. -/
def apNorthSouth : Orientation → Bool
  | .center | .north | .south => true
  | _ => false

/-- With center, north and south alone, south passes the token to a board that is not
there. -/
theorem partialRing_lost :
    ¬ ∀ (registered : Orientation → ComponentId → Bool) (present : Orientation → Bool)
      (csId : ComponentId), present .center = true →
      2 ≤ (Orientation.all.filter present).length →
      TokenRing.Survives registered present csId := by
  intro h
  have survives := h (fun _ _ => true) apNorthSouth .routing rfl (by decide)
  obtain ⟨u, run, hpassing⟩ : ∃ u, (partialRing apNorthSouth).Reaches (.start fun _ _ => true) u ∧
      TokenRing.Passing apNorthSouth .routing .east u := by
    refine TokenRing.passing_reached (fun _ _ => true) rfl .routing .east ?_
    intro o'
    cases o' <;> decide
  exact hpassing.lost rfl (survives u run hpassing.out)

end I4A
