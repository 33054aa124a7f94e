import I4A.Mesh.Addresses
import I4A.Node.AccessPoint

/-! # Access points of a network of nodes

`node_set_as_ap` on every board that opens one: a forwarder a link at the start of its subnet, a
home board its subnet, the root's center board the link at the end of the root's network. The subnet
that a forwarder hands to another node is that node's network, whose own boards leave the link free.
-/

namespace I4A

/-! ## One board -/

theorem nodeSetAsAp_home {k q : Nat} (hk : k < 32) (hq : q < 2 ^ k) :
    (nodeSetAsAp .center false (Network.ofBlock k q)).apNetwork = Network.ofBlock k q := by
  have hpow : 1 < 2 ^ (32 - k) := Nat.one_lt_two_pow (by omega)
  have hroom : (q + 1) * 2 ^ (32 - k) ≤ 2 ^ 32 := by
    have hle : (q + 1) * 2 ^ (32 - k) ≤ 2 ^ k * 2 ^ (32 - k) := Nat.mul_le_mul_right _ hq
    rwa [← Nat.pow_add, show k + (32 - k) = 32 by omega] at hle
  rw [Nat.add_mul, Nat.one_mul] at hroom
  have hblock : Prefix.block k (Prefix.base 32 k q + 1) = q := by
    rw [Prefix.block, BitVec.toNat_add, Prefix.base_toNat (by omega) hq,
      show (1 : BitVec 32).toNat = 1 from rfl, Nat.mod_eq_of_lt (by omega)]
    exact Nat.div_eq_of_lt_le (by omega) (by rw [Nat.add_mul]; omega)
  have hbase := (Prefix.and_mask_eq_base (by omega) hq (Prefix.base 32 k q + 1)).mpr hblock
  change (⟨(Prefix.base 32 k q + 1) &&& Prefix.mask 32 k, Prefix.mask 32 k⟩ : Network) = _
  rw [hbase]
  rfl

theorem firstLink_inside {k q : Nat} (hk : k ≤ 30) (hq : q < 2 ^ k) :
    (firstLink (Network.ofBlock k q)).Inside (Network.ofBlock k q) := by
  intro ip hip
  rw [firstLink_contains hk hq] at hip
  rw [Network.contains_ofBlock (by omega) hq, Network.block_of_link hk, hip]
  exact Nat.mul_div_cancel q (Nat.two_pow_pos _)

namespace Mesh

variable {ι : Type*} [DecidableEq ι]

/-- The network that the board calls `node_set_as_ap` with: in `app_main` on the root's center
board, by `wl_enable_ap_mode` on the others. A home board keeps no network: that of the provisioning
it has handled is the one its node was provisioned with, by `Provisioned.provision`. -/
def apCall (t : Mesh ι) (p : Port ι) : Option Network :=
  match t.role p with
  | .root state => some state.network
  | .home state =>
      if state.isProvisioned then (t.network p.1).map (getNodeSubnet · p.2) else none
  | .forwarder state => if t.ap p then some state.deviceNetwork else none

/-- `ap_subnet` and `ap_mask` of the board. -/
def opened (root : ι) (t : Mesh ι) (p : Port ι) : Option Network :=
  (t.apCall p).map fun network => (nodeSetAsAp p.2 (p.1 = root) network).apNetwork

/-- All networks leave room for the links of the boards' subnets. -/
def Roomy (t : Mesh ι) : Prop := ∀ i N, t.network i = some N → maskSize N.mask ≤ 27

variable {root : ι} {network : Network} {t : Mesh ι} {p q : Port ι} {A B : Network}

omit [DecidableEq ι] in
theorem Roomy.short (h : t.Roomy) : t.ShortPrefixes :=
  fun i N hi => (h i N hi).trans (by decide)

theorem Roomy.plan (roomy : t.Roomy) (h : Provisioned root network t)
    (proper : ProperNetwork network.addr network.mask) {i : ι} {N : Network}
    (hi : t.network i = some N) : ∃ k q, k ≤ 27 ∧ N.Plan k q := by
  obtain ⟨k, q, plan⟩ := h.plan roomy.short proper hi
  have hk := roomy i N hi
  rw [plan.eq, Network.ofBlock_mask, maskSize_mask (by have := plan.short; omega)] at hk
  exact ⟨k, q, hk, plan⟩

/-! ## What a board opens -/

theorem opened_root (h : Provisioned root network t) (wide : maskSize network.mask ≤ 27)
    (proper : ProperNetwork network.addr network.mask)
    (hp : t.opened root (root, .center) = some A) : A = lastLink network := by
  obtain ⟨state, hrole, hnetwork⟩ := h.kinds.rootCenter
  obtain ⟨k, q, plan⟩ := Network.plan_of_proper proper (wide.trans (by decide))
  have hk := plan.short
  have hcalled : t.apCall (root, .center) = some network := by
    simp only [apCall, hrole, hnetwork]
  rw [opened, hcalled] at hp
  obtain rfl := Option.some.inj hp
  rw [decide_eq_true rfl, plan.eq]
  exact nodeSetAsAp_root (by omega) plan.number

/-- Every other board keeps to its own subnet, forwarders to the first link. -/
theorem opened_other (h : Provisioned root network t) (roomy : t.Roomy)
    (proper : ProperNetwork network.addr network.mask) (hne : p ≠ (root, .center))
    (hp : t.opened root p = some A) :
    ∃ N, t.network p.1 = some N ∧ A.Inside (getNodeSubnet N p.2) ∧
      (p.2 ≠ .center → A = firstLink (getNodeSubnet N p.2)) := by
  obtain ⟨i, o⟩ := p
  obtain ⟨called, hcalled, hA⟩ := Option.map_eq_some_iff.mp hp
  by_cases ho : o = .center
  · subst ho
    have hi : i ≠ root := fun hi => hne (by rw [hi])
    obtain ⟨state, hrole⟩ := h.kinds.homeCenter i hi
    simp only [apCall, hrole] at hcalled
    split at hcalled
    next =>
      obtain ⟨N, hN, rfl⟩ := Option.map_eq_some_iff.mp hcalled
      obtain ⟨k, q, hk, plan⟩ := roomy.plan h proper hN
      refine ⟨N, hN, ?_, fun hcenter => absurd rfl hcenter⟩
      rw [← hA, decide_eq_false hi, plan.subnet_eq .center,
        nodeSetAsAp_home (by omega) (plan.subnet_number .center)]
      exact fun _ hip => hip
    next => cases hcalled
  · obtain ⟨state, hrole⟩ := h.kinds.forwarder i o ho
    simp only [apCall, hrole] at hcalled
    split at hcalled
    next hap =>
      obtain ⟨state', N, hrole', -, hN, hholds⟩ := h.ap (i, o) ho hap
      rw [hrole] at hrole'
      cases hrole'
      cases hcalled
      obtain ⟨k, q, hk, plan⟩ := roomy.plan h proper hN
      have hfirst : A = firstLink (getNodeSubnet N o) := by
        rw [← hA, hholds.2, plan.subnet_eq o]
        exact nodeSetAsAp_forwarder (by omega) (plan.subnet_number o) ho _
      refine ⟨N, hN, ?_, fun _ => hfirst⟩
      rw [hfirst, plan.subnet_eq o]
      exact firstLink_inside (by omega) (plan.subnet_number o)
    next => cases hcalled

/-! ## Two boards -/

section Delegated

variable (h : Provisioned root network t) (served : OneServed t) (roomy : t.Roomy)
  (proper : ProperNetwork network.addr network.mask) (started : t.network root ≠ none)

theorem opened_kept (hne : p ≠ (root, .center)) (hp : t.opened root p = some A) {ip : BitVec 32}
    (hip : A.Contains ip) (d : ι)
    (hchild : (delegation h served roomy.short proper started).child p.1 p.2 d)
    (b : Orientation) : ip ∉ (delegation h served roomy.short proper started).part d b := by
  obtain ⟨i, o⟩ := p
  obtain ⟨hserved, -, M, hM, hd⟩ := hchild
  obtain ⟨N, hN, -, hfirst⟩ := opened_other h roomy proper hne hp
  rw [hM] at hN
  cases hN
  rw [hfirst (served.forwarder _ _ hserved)] at hip
  rintro ⟨L, hL, hpart⟩
  rw [hd] at hL
  cases hL
  obtain ⟨k, q, hk, plan⟩ := roomy.plan h proper hd
  exact (plan.partition hk).first.2 b ⟨ip, hpart, hip⟩

theorem opened_part (hne : p ≠ (root, .center)) (hp : t.opened root p = some A) {ip : BitVec 32}
    (hip : A.Contains ip) :
    (delegation h served roomy.short proper started).member p.1 ∧
      ip ∈ (delegation h served roomy.short proper started).part p.1 p.2 := by
  obtain ⟨N, hN, hinside, -⟩ := opened_other h roomy proper hne hp
  refine ⟨?_, N, hN, hinside ip hip⟩
  change t.network p.1 ≠ none
  simp [hN]

theorem lastLink_kept {ip : BitVec 32} (hip : (lastLink network).Contains ip) (d : ι)
    (hd : (delegation h served roomy.short proper started).member d) (b : Orientation) :
    ip ∉ (delegation h served roomy.short proper started).part d b := by
  intro hpart
  obtain ⟨b', N, hN, hcontains⟩ := (Delegation.root_above hd).mem_part hpart
  obtain rfl := h.rootNetwork N hN
  obtain ⟨k, q, hk, plan⟩ := roomy.plan h proper hN
  exact (plan.partition hk).last.2 b' ⟨ip, hcontains, hip⟩

end Delegated

end Mesh

/-! ## Runs -/

/-- Along runs whose links join an access point to another forwarder, but not to a fresh one while
another node has its subnet or is about to get it, and while the networks leave room for the links:
what any two boards of any nodes open as access points does not meet, and all of it is in the root's
network. -/
theorem mesh_accessPointsApart {ι : Type*} [DecidableEq ι] {root : ι} {network : Network}
    {t : Mesh ι} (proper : ProperNetwork network.addr network.mask)
    (wide : maskSize network.mask ≤ 27)
    (run : (meshMachine ι).Executes (fun t l => t.linksAp l = true ∧ t.servesOne l = true)
      (Mesh.start root network) t)
    (roomy : t.Roomy) :
    (∀ p A, t.opened root p = some A → A.Inside network) ∧
      ∀ p q A B, p ≠ q → t.opened root p = some A → t.opened root q = some B →
        ¬ A.Overlaps B := by
  have h : Mesh.Provisioned root network t := Mesh.Provisioned.run run fun _ _ hg => hg.1
  have served : Mesh.OneServed t :=
    run.invariant (.start root network) fun _ _ _ inv hg hs => inv.step hg.1 hg.2 hs
  have started : ∀ {p A}, p ≠ (root, .center) → t.opened root p = some A →
      t.network root ≠ none := by
    intro p A hne hp
    obtain ⟨N, hN, -⟩ := Mesh.opened_other h roomy proper hne hp
    exact h.rootStarted (by rw [hN]; exact Option.some_ne_none N)
  -- the link of the root's center board against what any other board opens
  have uplink : ∀ {q A B}, t.opened root (root, .center) = some A → q ≠ (root, .center) →
      t.opened root q = some B → ¬ A.Overlaps B := by
    rintro q A B hp hne hq ⟨ip, hip, hip'⟩
    obtain rfl := Mesh.opened_root h wide proper hp
    obtain ⟨hmember, hpart⟩ :=
      Mesh.opened_part h served roomy proper (started hne hq) hne hq hip'
    exact Mesh.lastLink_kept h served roomy proper (started hne hq) hip q.1 hmember q.2 hpart
  refine ⟨fun p A hp ip hip => ?_, fun p q A B hpq hp hq hoverlap => ?_⟩
  · by_cases hroot : p = (root, .center)
    · subst hroot
      obtain rfl := Mesh.opened_root h wide proper hp
      obtain ⟨k, q, plan⟩ := Network.plan_of_proper proper (wide.trans (by decide))
      have hk : k ≤ 27 := by
        rw [plan.eq, Network.ofBlock_mask, maskSize_mask (by have := plan.short; omega)] at wide
        exact wide
      exact (plan.partition hk).last.1 ip hip
    · obtain ⟨hmember, hpart⟩ :=
        Mesh.opened_part h served roomy proper (started hroot hp) hroot hp hip
      obtain ⟨N, hN, hcontains⟩ := Delegation.block_mono (Delegation.root_above hmember)
        (Delegation.part_subset _ _ _ hpart)
      rwa [h.rootNetwork N hN] at hcontains
  · by_cases hroot : p = (root, .center)
    · subst hroot
      exact uplink hp hpq.symm hq hoverlap
    by_cases hroot' : q = (root, .center)
    · subst hroot'
      obtain ⟨ip, hip, hip'⟩ := hoverlap
      exact uplink hq hpq hp ⟨ip, hip', hip⟩
    obtain ⟨ip, hip, hip'⟩ := hoverlap
    obtain ⟨hmember, hpart⟩ :=
      Mesh.opened_part h served roomy proper (started hroot hp) hroot hp hip
    obtain ⟨hmember', hpart'⟩ :=
      Mesh.opened_part h served roomy proper (started hroot hp) hroot' hq hip'
    obtain ⟨hnode, hboard⟩ := Delegation.eq_of_both_kept hmember hmember' hpart hpart'
      (Mesh.opened_kept h served roomy proper (started hroot hp) hroot hp hip)
      (Mesh.opened_kept h served roomy proper (started hroot hp) hroot' hq hip')
    exact hpq (Prod.ext hnode hboard)

/-- Node 1 is provisioned behind the north board of the root's node, and its east board opens. -/
def openSecond : List (MeshLabel (Fin 3)) := provisionFirst ++ [.sibl (1, .east), .sibl (1, .east)]

theorem openSecond_runs :
    ((meshMachine (Fin 3)).runWith (fun t l => t.linksAp l && t.servesOne l)
      (Mesh.start 0 rootNetwork) openSecond).isSome = true := by decide

def secondNode : Mesh (Fin 3) :=
  ((meshMachine (Fin 3)).runWith (fun t l => t.linksAp l && t.servesOne l)
    (Mesh.start 0 rootNetwork) openSecond).get openSecond_runs

theorem secondNode_roomy : secondNode.Roomy := by
  have hall : ∀ i, (secondNode.network i).all (fun N => maskSize N.mask ≤ 27) = true := by decide
  intro i N hi
  have hsome := hall i
  rw [hi] at hsome
  simpa using hsome

/-- The north board of the root's node keeps a link of the subnet that node 1 has, and the east
board of node 1 another one. -/
theorem mesh_accessPointsApart_first :
    secondNode.opened 0 (0, .north) = some ⟨0x0a200000, 0xfffffffc⟩ ∧
      secondNode.opened 0 (1, .east) = some ⟨0x0a2c0000, 0xfffffffc⟩ ∧
      ¬ (⟨0x0a200000, 0xfffffffc⟩ : Network).Overlaps ⟨0x0a2c0000, 0xfffffffc⟩ := by
  have hnorth : secondNode.opened 0 (0, .north) = some ⟨0x0a200000, 0xfffffffc⟩ := by decide
  have heast : secondNode.opened 0 (1, .east) = some ⟨0x0a2c0000, 0xfffffffc⟩ := by decide
  exact ⟨hnorth, heast, (mesh_accessPointsApart rootNetwork_proper (by decide)
    ((Machine.executes_of_runWith (Option.some_get openSecond_runs).symm).mono
      fun _ _ h => by simpa using h) secondNode_roomy).2
    (0, .north) (1, .east) _ _ (by decide) hnorth heast⟩

end I4A
