import I4A.Core.Delegation
import I4A.Mesh.Provisioning
import I4A.Routing.AddressPlan

/-! # Networks of the provisioned nodes

While no access point serves two nodes, provisioning hands out a tree of
blocks. A network is never given back: an access point that loses its link and
is linked to another fresh node gives the same one away again.
-/

namespace I4A

open Relation

/-- No access point is linked to a fresh board while another node it was linked to has its
subnet, or is about to get it. -/
def Mesh.servesOne {ι : Type*} [DecidableEq ι] (t : Mesh ι) : MeshLabel ι → Bool
  | .connect p q _ =>
      (!(t.ap p && (t.role q).fresh) || (t.served p).all fun i => i = q.1 || !t.holds p i) &&
        (!(t.ap q && (t.role p).fresh) || (t.served q).all fun i => i = p.1 || !t.holds q i)
  | _ => true

namespace Mesh

variable {ι : Type*}

/-- Node `i` was linked to an access point of node `j` while its board was fresh, and its
network is the access point's `device_network`. -/
def Delegates (t : Mesh ι) (j i : ι) : Prop :=
  ∃ o state, t.role (j, o) = .forwarder state ∧ i ∈ t.served (j, o) ∧
    t.network i = some state.deviceNetwork

/-- Networks of forwarders of two nodes meet only along a chain of delegations, and are never
the same. -/
structure UniqueAddresses (t : Mesh ι) : Prop where
  nested : ∀ p q state state', p.1 ≠ q.1 → t.role p = .forwarder state →
    t.role q = .forwarder state' → state.nodeNetwork ≠ Network.zero →
    state'.nodeNetwork ≠ Network.zero → state.nodeNetwork.Overlaps state'.nodeNetwork →
    TransGen t.Delegates p.1 q.1 ∨ TransGen t.Delegates q.1 p.1
  distinct : ∀ p q state state', p.1 ≠ q.1 → t.role p = .forwarder state →
    t.role q = .forwarder state' → state.nodeNetwork ≠ Network.zero →
    state.nodeNetwork ≠ state'.nodeNetwork

/-- Every provisioned node's network leaves room for its boards. -/
def ShortPrefixes (t : Mesh ι) : Prop :=
  ∀ i network, t.network i = some network → maskSize network.mask ≤ 28

/-- An access point serves at most one node. -/
structure OneServed (t : Mesh ι) : Prop where
  ap : ∀ p i, i ∈ t.served p → t.ap p = true
  forwarder : ∀ p i, i ∈ t.served p → p.2 ≠ .center
  one : ∀ p i j, i ∈ t.served p → j ∈ t.served p → i = j

/-! ## The history of a run -/

variable [DecidableEq ι] {root : ι} {network : Network} {t u : Mesh ι}

theorem mem_serve {p q x : Port ι} {i : ι} (h : i ∈ t.serve p q x) :
    (i ∈ t.served x ∧ (x = p → t.ap p = true → (t.role q).fresh = true → t.holds p i = true)) ∨
      (x = p ∧ i = q.1 ∧ t.ap p = true ∧ (t.role q).fresh = true) := by
  unfold serve at h
  split at h
  · next hc =>
    by_cases hx : x = p
    · subst hx
      rw [Function.update_self, List.mem_cons, List.mem_filter] at h
      exact h.symm.imp (fun hi => ⟨hi.1, fun _ _ _ => hi.2⟩) fun hi => ⟨rfl, hi, hc⟩
    · rw [Function.update_of_ne hx] at h
      exact .inl ⟨h, fun hxp => absurd hxp hx⟩
  · next hc => exact .inl ⟨h, fun _ hap hf => absurd ⟨hap, hf⟩ hc⟩

theorem OneServed.start (root : ι) (network : Network) : OneServed (Mesh.start root network) :=
  ⟨fun _ _ hi => (nomatch hi), fun _ _ hi => (nomatch hi), fun _ _ _ hi => (nomatch hi)⟩

theorem OneServed.act {s : Mesh ι} (h : OneServed t) (hserved : s.served = t.served)
    (hap : s.ap = t.ap) (p : Port ι) (node : Node) (actions : List RtAction) :
    OneServed (s.act p node actions) where
  ap q i hi := act_ap_mono (by
    rw [hap]
    exact h.ap q i (by rw [← hserved]; exact hi))
  forwarder q i hi := h.forwarder q i (by rw [← hserved]; exact hi)
  one q i j hi hj := h.one q i j (by rw [← hserved]; exact hi) (by rw [← hserved]; exact hj)

theorem OneServed.connect (h : OneServed t) {p q : Port ι} {connection : Network} (hpq : p ≠ q)
    (links : t.linksAp (.connect p q connection) = true)
    (one : t.servesOne (.connect p q connection) = true) :
    OneServed (t.connect p q connection) := by
  simp only [linksAp, Bool.and_eq_true, decide_eq_true_eq] at links
  obtain ⟨⟨-, hpc⟩, hqc⟩ := links
  simp only [servesOne, Bool.and_eq_true, Bool.or_eq_true, Bool.not_eq_true', List.all_eq_true,
    decide_eq_true_eq] at one
  -- of the nodes that were served before, those that stay are the one that is served now
  have hmem : ∀ {x i}, i ∈ (t.connect p q connection).served x → i ∈ t.served x ∧
      (x = p → t.ap p = true → (t.role q).fresh = true → i = q.1) ∧
        (x = q → t.ap q = true → (t.role p).fresh = true → i = p.1) ∨
      (x = q ∧ i = p.1 ∧ t.ap q = true ∧ (t.role p).fresh = true) ∨
        (x = p ∧ i = q.1 ∧ t.ap p = true ∧ (t.role q).fresh = true) := by
    intro x i hi
    rcases mem_serve hi with ⟨hfirst, hq⟩ | hi
    · rcases mem_serve hfirst with ⟨hold, hp⟩ | hi
      · refine .inl ⟨hold, ?_, ?_⟩
        · rintro rfl hap hf
          have hall := one.1.resolve_left (by simp [hap, hf]) i hold
          exact hall.resolve_right (by simp [hp rfl hap hf])
        · rintro rfl hap hf
          have hall := one.2.resolve_left (by simp [hap, hf]) i hold
          have hholds : t.holds x i = true := hq rfl hap hf
          exact hall.resolve_right (by simp [hholds])
      · exact .inr (.inr hi)
    · exact .inr (.inl hi)
  refine ⟨fun x i hi => ?_, fun x i hi => ?_, fun x i j hi hj => ?_⟩
  · rcases hmem hi with ⟨hold, -⟩ | ⟨rfl, -, hap, -⟩ | ⟨rfl, -, hap, -⟩
    · exact h.ap x i hold
    · exact hap
    · exact hap
  · rcases hmem hi with ⟨hold, -⟩ | ⟨rfl, -⟩ | ⟨rfl, -⟩
    · exact h.forwarder x i hold
    · exact hqc
    · exact hpc
  · rcases hmem hi with hi | hi | hi <;> rcases hmem hj with hj | hj | hj
    · exact h.one x i j hi.1 hj.1
    · exact (hi.2.2 hj.1 hj.2.2.1 hj.2.2.2).trans hj.2.1.symm
    · exact (hi.2.1 hj.1 hj.2.2.1 hj.2.2.2).trans hj.2.1.symm
    · exact hi.2.1.trans (hj.2.2 hi.1 hi.2.2.1 hi.2.2.2).symm
    · exact hi.2.1.trans hj.2.1.symm
    · exact absurd (hj.1.symm.trans hi.1) hpq
    · exact hi.2.1.trans (hj.2.1 hi.1 hi.2.2.1 hi.2.2.2).symm
    · exact absurd (hi.1.symm.trans hj.1) hpq
    · exact hi.2.1.trans hj.2.1.symm

theorem OneServed.step (h : OneServed t) {l : MeshLabel ι} (links : t.linksAp l = true)
    (one : t.servesOne l = true) (hs : (meshMachine ι).step t l = some u) : OneServed u := by
  cases l with
  | connect p q connection =>
      obtain ⟨hpq, -, -, rfl⟩ := step_connect hs
      exact h.connect hpq links one
  | disconnect p connection =>
      obtain ⟨q, -, rfl⟩ := step_disconnect hs
      exact ⟨h.ap, h.forwarder, h.one⟩
  | sibl p =>
      obtain ⟨ev, rest, result, -, -, rfl⟩ := step_sibl hs
      exact h.act (record_served _ _ _) (record_ap _ _ _) _ _ _
  | peer p ev =>
      obtain ⟨-, -, result, -, rfl⟩ := step_peer hs
      exact h.act (record_served (t.take p ev) _ _) (record_ap (t.take p ev) _ _) _ _ _
  | lose p ev =>
      obtain ⟨-, -, rfl⟩ := step_lose hs
      exact ⟨h.ap, h.forwarder, h.one⟩
  | tick i dtMs =>
      cases hs
      exact h.act rfl rfl _ _ _

/-! ## The tree of networks -/

theorem Provisioned.plan (h : Provisioned root network t) (short : t.ShortPrefixes)
    (proper : ProperNetwork network.addr network.mask) {i : ι} {N : Network}
    (hi : t.network i = some N) : ∃ k q, N.Plan k q := by
  induction hr : t.rank i using Nat.strong_induction_on generalizing i N with
  | _ r ih =>
      by_cases hroot : i = root
      · subst hroot
        obtain rfl := h.rootNetwork N hi
        exact Network.plan_of_proper proper (short i N hi)
      · obtain ⟨j, o, offer, hlt⟩ := h.parent i N hroot hi
        obtain ⟨M, hM, rfl⟩ := offer.subnet
        obtain ⟨k, q, hplan⟩ := ih (t.rank j) (by omega) hM rfl
        exact ⟨_, _, hplan.subnet o (short i _ hi)⟩

/-- The provisioned nodes as a delegation tree. -/
def delegation (h : Provisioned root network t) (served : OneServed t) (short : t.ShortPrefixes)
    (proper : ProperNetwork network.addr network.mask) (started : t.network root ≠ none) :
    Delegation ι Orientation (BitVec 32) where
  member i := t.network i ≠ none
  child j o i := i ∈ t.served (j, o) ∧ t.rank j < t.rank i ∧
    ∃ M, t.network j = some M ∧ t.network i = some (getNodeSubnet M o)
  block i := {ip | ∃ N, t.network i = some N ∧ N.Contains ip}
  part j o := {ip | ∃ N, t.network j = some N ∧ (getNodeSubnet N o).Contains ip}
  rank := t.rank
  root := root
  member_root := started
  parent i hi hroot := by
    obtain ⟨N, hN⟩ := Option.ne_none_iff_exists'.mp hi
    obtain ⟨j, o, offer, hlt⟩ := h.parent i N hroot hN
    obtain ⟨M, hM, rfl⟩ := offer.subnet
    exact ⟨j, o, by simp [hM], offer.served, hlt, M, hM, hN⟩
  rank_lt hchild := hchild.2.1
  block_child := by
    rintro j o i ⟨-, -, M, hM, hi⟩
    ext ip
    simp [hM, hi]
  part_subset := by
    rintro j o ip ⟨N, hN, hip⟩
    obtain ⟨k, q, hplan⟩ := h.plan short proper hN
    exact ⟨N, hN, hplan.contains_of_subnet hip⟩
  part_disjoint := by
    rintro j o o' ip ⟨N, hN, hip⟩ ⟨N', hN', hip'⟩
    rw [hN] at hN'
    cases hN'
    obtain ⟨k, q, hplan⟩ := h.plan short proper hN
    exact hplan.eq_of_subnets hip hip'
  one_child hc hc' := served.one _ _ _ hc.1 hc'.1

section Tree

variable (h : Provisioned root network t) (served : OneServed t) (short : t.ShortPrefixes)
  (proper : ProperNetwork network.addr network.mask) (started : t.network root ≠ none)

theorem delegates_of_edge {j i : ι}
    (edge : (delegation h served short proper started).Edge j i) : t.Delegates j i := by
  obtain ⟨o, hserved, -, M, hM, hi⟩ := edge
  obtain ⟨state, N, hstate, -, hN, hholds⟩ :=
    h.ap (j, o) (served.forwarder _ _ hserved) (served.ap _ _ hserved)
  rw [hM] at hN
  cases hN
  exact ⟨o, state, hstate, hserved, by rw [hi, hholds.2]⟩

theorem delegates_of_above {j i : ι} (hne : j ≠ i)
    (above : (delegation h served short proper started).Above j i) :
    TransGen t.Delegates j i := by
  have hchain : ReflTransGen t.Delegates j i :=
    ReflTransGen.mono (fun _ _ => delegates_of_edge h served short proper started) _ _ above
  exact (reflTransGen_iff_eq_or_transGen.mp hchain).resolve_left hne.symm

include h served short proper started in
/-- Two nodes with the same network are one. -/
theorem eq_of_network {i j : ι} {N : Network} (hi : t.network i = some N)
    (hj : t.network j = some N) : i = j := by
  obtain ⟨k, q, hplan⟩ := h.plan short proper hi
  let D := delegation h served short proper started
  have strict : ∀ {a c}, t.network a = some N → t.network c = some N → D.Above a c → a = c := by
    intro a c ha hc above
    rcases above.cases_part with rfl | ⟨o, d, hchild, hdc⟩
    · rfl
    · -- an address of another board's subnet is not in the part that was handed on
      obtain ⟨ip, hip⟩ := hplan.exists_mem_subnet o.next
      have hblock : ip ∈ D.block c := ⟨N, hc, hplan.contains_of_subnet hip⟩
      have hpart : ip ∈ D.part a o := by
        rw [← D.block_child hchild]
        exact Delegation.block_mono hdc hblock
      exact absurd (D.part_disjoint (⟨N, ha, hip⟩ : ip ∈ D.part a o.next) hpart) o.next_ne
  have hmem : D.member i := by
    change t.network i ≠ none
    simp [hi]
  have hmem' : D.member j := by
    change t.network j ≠ none
    simp [hj]
  have hx : N.addr ∈ D.block i := ⟨N, hi, hplan.contains_self⟩
  have hx' : N.addr ∈ D.block j := ⟨N, hj, hplan.contains_self⟩
  rcases D.above_or_above hmem hmem' hx hx' with hab | hba
  · exact strict hi hj hab
  · exact (strict hj hi hba).symm

end Tree

omit [DecidableEq ι] in
theorem Provisioned.network_of_role (h : Provisioned root network t) {p : Port ι}
    {state : RtForwarderState} (hrole : t.role p = .forwarder state)
    (hne : state.nodeNetwork ≠ Network.zero) : t.network p.1 = some state.nodeNetwork := by
  rcases h.networks p state hrole with hblank | ⟨N, hN, hholds⟩
  · exact absurd hblank.1 hne
  · rw [hN, hholds.1]

end Mesh

/-! ## Runs -/

section Runs

variable {ι : Type*} [DecidableEq ι]

/-- Along runs in which no access point is linked to a fresh board while another node has its
subnet, or is about to get it, and while prefixes leave room for the boards, two nodes'
networks meet only along delegations. -/
theorem mesh_uniqueAddresses {root : ι} {network : Network} {t : Mesh ι}
    (proper : ProperNetwork network.addr network.mask)
    (run : (meshMachine ι).Executes (fun t l => t.linksAp l = true ∧ t.servesOne l = true)
      (Mesh.start root network) t)
    (short : t.ShortPrefixes) : t.UniqueAddresses := by
  have h : Mesh.Provisioned root network t := Mesh.Provisioned.run run fun _ _ hg => hg.1
  have served : Mesh.OneServed t :=
    run.invariant (.start root network) fun _ _ _ inv hg hs => inv.step hg.1 hg.2 hs
  refine ⟨fun p q state state' hpq hp hq hne hne' ⟨ip, hip, hip'⟩ => ?_,
    fun p q state state' hpq hp hq hne heq => ?_⟩
  · have hN := h.network_of_role hp hne
    have hM := h.network_of_role hq hne'
    have started : t.network root ≠ none := by
      apply h.rootStarted
      rw [hN]
      exact Option.some_ne_none _
    have hmem : (Mesh.delegation h served short proper started).member p.1 := by
      change t.network p.1 ≠ none
      simp [hN]
    have hmem' : (Mesh.delegation h served short proper started).member q.1 := by
      change t.network q.1 ≠ none
      simp [hM]
    rcases Delegation.above_or_above hmem hmem' ⟨_, hN, hip⟩ ⟨_, hM, hip'⟩ with hab | hba
    · exact .inl (Mesh.delegates_of_above h served short proper started hpq hab)
    · exact .inr (Mesh.delegates_of_above h served short proper started hpq.symm hba)
  · have hN := h.network_of_role hp hne
    have hM := h.network_of_role hq (heq ▸ hne)
    rw [← heq] at hM
    have started : t.network root ≠ none := by
      apply h.rootStarted
      rw [hN]
      exact Option.some_ne_none _
    exact hpq (Mesh.eq_of_network h served short proper started hN hM)

end Runs

theorem rootNetwork_proper : ProperNetwork rootNetwork.addr rootNetwork.mask :=
  ⟨8, by omega, by decide, by decide⟩

/-- Node 0 is the root's; its north board provisions node 1. -/
def provisionFirst : List (MeshLabel (Fin 3)) :=
  [.sibl (0, .center), .sibl (0, .north), .sibl (0, .north),
    .connect (0, .north) (1, .south) Network.zero,
    .peer (0, .north) (.connected Network.zero), .sibl (1, .south),
    .peer (1, .south) (.handshake ⟨rootNetwork, ⟨0x0a200000, 0xffe00000⟩, 1⟩)]

/-- It loses the link and provisions node 2. -/
def provisionSecond : List (MeshLabel (Fin 3)) :=
  provisionFirst ++
    [.disconnect (0, .north) Network.zero, .connect (0, .north) (2, .south) Network.zero,
      .peer (0, .north) (.connected Network.zero), .sibl (2, .south),
      .peer (2, .south) (.handshake ⟨rootNetwork, ⟨0x0a200000, 0xffe00000⟩, 1⟩)]

theorem provisionSecond_runs :
    ((meshMachine (Fin 3)).runWith Mesh.linksAp (Mesh.start 0 rootNetwork)
      provisionSecond).isSome = true := by decide

theorem mesh_sharedAddresses :
    ¬ ∀ t : Mesh (Fin 3),
      (meshMachine (Fin 3)).Executes (fun t l => t.linksAp l = true)
        (Mesh.start 0 rootNetwork) t → t.UniqueAddresses := by
  intro h
  have unique := h _ (Machine.executes_of_runWith (Option.some_get provisionSecond_runs).symm)
  exact unique.distinct (1, .south) (2, .south) _ _ (by decide) rfl rfl (by decide) rfl

theorem provisionFirst_runs :
    ((meshMachine (Fin 3)).runWith (fun t l => t.linksAp l && t.servesOne l)
      (Mesh.start 0 rootNetwork) provisionFirst).isSome = true := by decide

theorem provisionFirst_short :
    Mesh.ShortPrefixes (((meshMachine (Fin 3)).runWith (fun t l => t.linksAp l && t.servesOne l)
      (Mesh.start 0 rootNetwork) provisionFirst).get provisionFirst_runs) := by
  have hall : ∀ i, ((((meshMachine (Fin 3)).runWith (fun t l => t.linksAp l && t.servesOne l)
      (Mesh.start 0 rootNetwork) provisionFirst).get provisionFirst_runs).network i).all
      (fun network => maskSize network.mask ≤ 28) = true := by decide
  intro i network hi
  have hsome := hall i
  rw [hi] at hsome
  simpa using hsome

/-- The blocks of the root's node and of node 1 overlap, and one delegated to the other. -/
theorem mesh_uniqueAddresses_first :
    let t := ((meshMachine (Fin 3)).runWith (fun t l => t.linksAp l && t.servesOne l)
      (Mesh.start 0 rootNetwork) provisionFirst).get provisionFirst_runs
    TransGen t.Delegates 0 1 ∨ TransGen t.Delegates 1 0 :=
  (mesh_uniqueAddresses rootNetwork_proper
    ((Machine.executes_of_runWith (Option.some_get provisionFirst_runs).symm).mono
      fun _ _ h => by simpa using h) provisionFirst_short).nested
    (0, .north) (1, .south) _ _ (by decide) rfl rfl (by decide) (by decide)
    ⟨0x0a200001, by decide, by decide⟩

end I4A
