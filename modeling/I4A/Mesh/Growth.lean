import I4A.Mesh.Tree

/-! # Handled events in a tree

The root's start, the starts and provisions of the other boards, and the three
uses of a handshake: a board with a network sends one, a fresh board gets its
network by one, and an access point learns the network behind it by one. Each
keeps the tree, and so does every run that grows it.
-/

namespace I4A

open Forwarder

namespace Mesh

variable {ι : Type*} [DecidableEq ι] {root : ι} {network : Network} {t u : Mesh ι} {p q : Port ι}

/-! ## One handled event -/

section Act

variable {n : Node} (result : RtRole × List RtAction)

omit [DecidableEq ι] in
@[simp] theorem send_nil (t : Mesh ι) (p : Port ι) : t.send p [] = [] := by
  cases h : t.link p <;> simp [send, h]

/-- A board keeps its role, provisions its home, or has its node's network. -/
theorem Boards.act (h : Boards t) (s : Mesh ι) (hn : t.Ready p n) (hs : s.nodes = t.nodes)
    (kept : ∀ i N, t.network i = some N → s.network i = some N)
    (role : result.1 = t.role p ∨ (∃ state, result.1 = .home state) ∨
      ∃ state N, result.1 = .forwarder state ∧ s.network p.1 = some N ∧ state.Holds N p.2)
    (stored : ∀ ev ∈ n.inbox p.2, ev ∈ t.inbox p)
    (answer : ∀ ev ∈ siblEvents result.2, ∃ event, ev = .provision event) :
    Boards (s.act p (n.act p.2 result) result.2) where
  holds x state hstate hnot := by
    rw [act_role result s hn hs] at hstate
    have hold : t.role x = .forwarder state →
        ∃ N, s.network x.1 = some N ∧ state.Holds N x.2 := by
      intro hrole
      obtain ⟨N, hN, hholds⟩ := h.holds x state hrole hnot
      exact ⟨N, kept _ _ hN, hholds⟩
    split at hstate
    · next hx =>
      subst hx
      rcases role with hsame | ⟨other, hhome⟩ | ⟨other, N, hnew, hN, hholds⟩
      · exact hold (hsame ▸ hstate)
      · rw [hhome] at hstate
        cases hstate
      · rw [hnew] at hstate
        cases hstate
        exact ⟨N, hN, hholds⟩
    · exact hold hstate
  calm i state hstate := by
    rw [act_role result s hn hs] at hstate
    split at hstate
    · next hp =>
      rcases role with hsame | ⟨other, hhome⟩ | ⟨other, N, hnew, -⟩
      · rw [hsame, ← hp] at hstate
        exact h.calm i state hstate
      · rw [hhome] at hstate
        cases hstate
      · rw [hnew] at hstate
        cases hstate
    · exact h.calm i state hstate
  stored x ev hev := by
    rw [act_inbox result s hn hs] at hev
    split at hev
    · next hx =>
      subst hx
      exact h.stored x ev (stored ev hev)
    · split at hev
      · rcases List.mem_append.mp hev with hold | hnew
        · exact h.stored x ev hold
        · exact .inr (answer ev hnew)
      · exact h.stored x ev hev

/-- Events of which some are handled and none are new. -/
theorem Mail.handled (h : Mail t) (link : u.link = t.link) (served : u.served = t.served)
    (sub : u.pending.Sublist t.pending)
    (kept : ∀ i N, t.network i = some N → u.network i = some N)
    (read : ∀ x c, t.link x = some c → c.1 ∈ t.served x → u.network c.1 ≠ none →
      t.network c.1 = none → u.pending.countP (isNews x c) = 0) : Mail u where
  linked x ev hin := by
    rw [link]
    exact h.linked x ev (sub.subset hin)
  kind x ev hin := h.kind x ev (sub.subset hin)
  once x c hlink hc := by
    rw [link] at hlink
    rw [served] at hc
    exact sub.countP_le.trans (h.once x c hlink hc)
  read x c hlink hc hsome := by
    rw [link] at hlink
    rw [served] at hc
    by_cases hnone : t.network c.1 = none
    · exact read x c hlink hc hsome hnone
    · have hzero := h.read x c hlink hc hnone
      have hle := sub.countP_le (p := isNews x c)
      omega
  external x c event hlink hc hin := by
    rw [link] at hlink
    rw [served] at hc
    exact kept _ _ (h.external x c event hlink hc (sub.subset hin))

omit [DecidableEq ι] in
/-- Tables and home boards that stay as they are. -/
theorem Routes.frame (h : Routes t) (sorted : ∀ i, (u.nodes i).table.Sorted)
    (used : ∀ i, u.routes i = t.routes i)
    (center : ∀ i, u.role (i, .center) = t.role (i, .center)) (link : u.link = t.link)
    (served : u.served = t.served) (kept : ∀ i N, t.network i = some N → u.network i = some N)
    (child : ∀ x c, t.link x = some c → c.1 ∈ t.served x →
      (∃ connection, (c, .connected connection) ∈ t.pending) ∨
        (∃ event, (x, .handshake event) ∈ t.pending) →
      (∃ connection, (c, .connected connection) ∈ u.pending) ∨
        (∃ event, (x, .handshake event) ∈ u.pending)) : Routes u where
  sorted := sorted
  entries i e he := by
    rw [used] at he
    rw [center, link, served]
    rcases h.entries i e he with ⟨hrole, N, hN, rfl⟩ | ⟨o, c, N, hlink, hc, hN, rfl⟩
    · exact .inl ⟨hrole, N, kept _ _ hN, rfl⟩
    · exact .inr ⟨o, c, N, hlink, hc, kept _ _ hN, rfl⟩
  home i hrole := by
    rw [center] at hrole
    obtain ⟨N, hN, hmem⟩ := h.home i hrole
    exact ⟨N, kept _ _ hN, by rw [used]; exact hmem⟩
  child x c hlink hc := by
    rw [link] at hlink
    rw [served] at hc
    rcases h.child x c hlink hc with hconnected | hevent | ⟨N, hN, hmem⟩
    · exact (child x c hlink hc (.inl hconnected)).imp_right .inl
    · exact (child x c hlink hc (.inr hevent)).imp_right .inl
    · exact .inr (.inr ⟨N, kept _ _ hN, by rw [used]; exact hmem⟩)

omit [DecidableEq ι] in
theorem Uplinks.frame (h : Uplinks root t) (gateway : ∀ i, u.gateway i = t.gateway i)
    (network : u.network = t.network) (link : u.link = t.link) (served : u.served = t.served) :
    Uplinks root u where
  up i hi hN := by
    rw [network] at hN
    rw [link, served, gateway]
    exact h.up i hi hN
  ends i hi := by
    rw [network] at hi
    rw [gateway]
    exact h.ends i hi

omit [DecidableEq ι] in
theorem Downlinks.frame (h : Downlinks root t) (link : u.link = t.link)
    (served : u.served = t.served) : Downlinks root u := by
  constructor
  · rw [link, served]
    exact h.linked
  · rw [served]
    exact h.server
  · rw [link, served]
    exact h.down
  · rw [served]
    exact h.notRoot

/-- An event that changes no table and sends nothing. -/
theorem Tree.quiet (h : Tree root network t) (hn : t.Ready p n)
    (prov : Provisioned root network (t.act p (n.act p.2 result) result.2))
    (one : OneServed (t.act p (n.act p.2 result) result.2))
    (role : result.1 = t.role p ∨ ∃ state N, result.1 = .forwarder state ∧ p.2 ≠ .center ∧
      t.network p.1 = some N ∧ state.Holds N p.2)
    (stored : ∀ ev ∈ n.inbox p.2, ev ∈ t.inbox p) (answer : siblEvents result.2 = [])
    (message : peerMessages result.2 = [])
    (table : ∀ table, tableAfter table result.2 = table) :
    Tree root network (t.act p (n.act p.2 result) result.2) := by
  have htable : ∀ i, ((t.act p (n.act p.2 result) result.2).nodes i).table =
      (t.nodes i).table := by
    intro i
    rw [act_table result t hn rfl, table]
    exact ite_self _
  have hpending : (t.act p (n.act p.2 result) result.2).pending = t.pending := by
    simp [act, message]
  have hcenter : ∀ i, (t.act p (n.act p.2 result) result.2).role (i, .center) =
      t.role (i, .center) := by
    intro i
    rw [act_role result t hn rfl]
    split
    · next hp =>
      rcases role with hsame | ⟨state, N, -, hne, -⟩
      · rw [hsame, ← hp]
      · rw [← hp] at hne
        exact absurd rfl hne
    · rfl
  refine ⟨prov, one, h.links.frame rfl rfl, ?_, ?_, ?_, ?_⟩
  · refine h.boards.act result t hn rfl (fun _ _ => id) ?_ stored (by simp [answer])
    refine role.imp_right fun hrole => ?_
    obtain ⟨state, N, hnew, -, hN, hholds⟩ := hrole
    exact .inr ⟨state, N, hnew, hN, hholds⟩
  · exact h.mail.handled rfl rfl (by rw [hpending]) (fun _ _ => id)
      fun x c _ _ hsome hnone => absurd hnone hsome
  · refine h.routes.frame ?_ ?_ hcenter rfl rfl (fun _ _ => id) ?_
    · intro i
      rw [htable]
      exact h.routes.sorted i
    · intro i
      rw [Mesh.routes, htable, Mesh.routes]
    · rw [hpending]
      exact fun _ _ _ _ => id
  · refine h.uplinks.frame (fun i => ?_) rfl rfl rfl
    rw [Mesh.gateway, htable, Mesh.gateway]

end Act

namespace Tree

/-! ## Sibling events -/

/-- The root's start. -/
theorem rootStart (h : Tree root network t) {rest : List RtSiblEvent} {state : RtRootState}
    (hin : t.inbox p = .onStart :: rest) (hrole : t.role p = .root state)
    (hu : u = (t.record p.1 (some state.network)).act p
      (((t.nodes p.1).pop p.2 rest).act p.2 (RtRole.ofRoot (Root.onStart p.2 state)))
      (Root.onStart p.2 state).2)
    (prov : Provisioned root network u) (one : OneServed u) : Tree root network u := by
  obtain ⟨hp, hnone, hprovides⟩ := h.prov.rootStarts hin hrole
  rw [← hu] at hprovides
  obtain ⟨hempty, hunlinked, hidle⟩ := h.prov.early hnone
  have hready := ready_pop t p rest
  have hpending : u.pending = [] := by
    rw [List.eq_nil_iff_forall_not_mem]
    intro m hm
    have hold := hprovides.pending m hm
    rw [hidle] at hold
    cases hold
  have hlink : ∀ {x c}, t.link x ≠ some c := by
    intro x c hl
    rw [hunlinked x] at hl
    cases hl
  have hkept : ∀ i N, t.network i = some N → u.network i = some N := by
    intro i N hN
    rw [hempty i] at hN
    cases hN
  have htable : ∀ i, (u.nodes i).table = if i = p.1 then
      tableAfter (t.nodes i).table (Root.onStart p.2 state).2 else (t.nodes i).table := by
    rw [hu]
    exact act_table (RtRole.ofRoot (Root.onStart p.2 state)) (record t p.1 (some state.network))
      hready (record_nodes _ _ _)
  have hroutes : ∀ i, u.routes i = t.routes i := by
    intro i
    rw [Mesh.routes, htable]
    split
    · have hdefault := congrArg RtRoutingTable.used (add_default (t.nodes i).table p.2.output)
      exact hdefault
    · rfl
  refine ⟨prov, one, h.links.frame hprovides.link hprovides.served, ?_, ?_, ?_, ?_, ?_⟩
  · rw [hu]
    refine h.boards.act (RtRole.ofRoot (Root.onStart p.2 state))
      (record t p.1 (some state.network)) hready (record_nodes _ _ _) ?_ (.inl hrole.symm) ?_ ?_
    · intro i N hN
      rw [hempty i] at hN
      cases hN
    · intro ev hev
      exact Node.mem_of_mem_pop hin hev
    · simp [RtRole.ofRoot, Root.onStart, RtAction.siblEvent]
  · refine h.mail.handled hprovides.link hprovides.served ?_ hkept ?_
    · rw [hpending]
      exact List.nil_sublist _
    · exact fun x c hl => absurd hl hlink
  · refine h.routes.frame ?_ hroutes ?_ hprovides.link hprovides.served hkept ?_
    · intro i
      rw [htable]
      split
      · exact tableAfter_sorted (h.routes.sorted i) _
      · exact h.routes.sorted i
    · intro i
      by_cases hi : (i, Orientation.center) = p
      · have hself := act_role_self (t.record p.1 (some state.network)) p
          ((t.nodes p.1).pop p.2 rest) (RtRole.ofRoot (Root.onStart p.2 state))
        rw [hi, hu]
        exact hself.trans hrole.symm
      · exact hprovides.role _ hi
    · exact fun x c hl => absurd hl hlink
  · intro i hi hN
    rw [hprovides.network, Function.update_of_ne (by rw [hp]; exact hi), hempty i] at hN
    exact absurd rfl hN
  · intro i hi
    rw [Mesh.gateway, htable]
    by_cases hroot : i = root
    · rw [if_pos (by rw [hp]; exact hroot), tableAfter_defaultGateway]
      simp [Root.onStart, RtAction.gateway, hp]
    · rw [if_neg (by rw [hp]; exact hroot)]
      exact h.uplinks.ends i (.inr (hempty i))

/-- The routes with one more, to the subnet of board `p`. -/
theorem addRoute_routes (h : Tree root network t) (short : t.ShortPrefixes)
    (proper : ProperNetwork network.addr network.mask) {N : Network}
    (hN : t.network p.1 = some N) (link : u.link = t.link) (served : u.served = t.served)
    (hnetwork : u.network = t.network)
    (table : ∀ i, (u.nodes i).table = if i = p.1 then
      routingTableAdd (t.nodes i).table (getNodeSubnet N p.2).addr (getNodeSubnet N p.2).mask
        p.2.output else (t.nodes i).table)
    (center : ∀ i, i ≠ p.1 → u.role (i, .center) = t.role (i, .center))
    (self : (p.2 = .center ∧ u.role p = .home ⟨true⟩ ∧ t.role p ≠ .home ⟨true⟩) ∨
      (u.role (p.1, .center) = t.role (p.1, .center) ∧
        ∃ c, t.link p = some c ∧ c.1 ∈ t.served p ∧ t.network c.1 = some (getNodeSubnet N p.2)))
    (child : ∀ m, m ∈ t.pending → m ∈ u.pending ∨ (p.2 ≠ .center ∧ ∃ event,
      m = (p, .handshake event))) : Routes u := by
  obtain ⟨hold, hnew, honly⟩ := h.add_route short proper hN p.2 rfl
  have hroutes : ∀ i e, e ∈ t.routes i → e ∈ u.routes i := by
    intro i e he
    rw [Mesh.routes, table]
    split
    · next hi =>
      subst hi
      exact hold e he
    · exact he
  have hmem : routeTo (getNodeSubnet N p.2) p.2 ∈ u.routes p.1 := by
    rw [Mesh.routes, table, if_pos rfl]
    exact hnew
  have hentry : ∀ i e, e ∈ u.routes i →
      e ∈ t.routes i ∨ (i = p.1 ∧ e = routeTo (getNodeSubnet N p.2) p.2) := by
    intro i e he
    rw [Mesh.routes, table] at he
    split at he
    · next hi =>
      subst hi
      exact (honly e he).imp_right fun heq => ⟨rfl, heq⟩
    · exact .inl he
  constructor
  case sorted =>
    intro i
    rw [table]
    split
    · exact (h.routes.sorted i).add _ _ _
    · exact h.routes.sorted i
  case entries =>
    intro i e he
    rw [hnetwork, link, served]
    have hcenter : t.role (i, .center) = .home ⟨true⟩ → u.role (i, .center) = .home ⟨true⟩ := by
      intro hrole
      by_cases hi : i = p.1
      · subst hi
        rcases self with ⟨hp, -, hnot⟩ | ⟨hsame, -⟩
        · rw [← hp] at hrole
          exact absurd hrole hnot
        · rw [hsame, hrole]
      · rw [center i hi, hrole]
    rcases hentry i e he with hmem' | ⟨rfl, rfl⟩
    · exact (h.routes.entries i e hmem').imp_left (And.imp_left hcenter)
    · rcases self with ⟨hp, hrole, -⟩ | ⟨-, c, hc, hserved, hM⟩
      · refine .inl ⟨?_, N, hN, by rw [hp]⟩
        rw [← hrole, ← hp]
      · exact .inr ⟨p.2, c, _, hc, hserved, hM, rfl⟩
  case home =>
    intro i hrole
    rw [hnetwork]
    have hkeeps : t.role (i, .center) = .home ⟨true⟩ → ∃ M, t.network i = some M ∧
        routeTo (getNodeSubnet M .center) .center ∈ u.routes i := by
      intro hrole'
      obtain ⟨M, hM, hin⟩ := h.routes.home i hrole'
      exact ⟨M, hM, hroutes i _ hin⟩
    by_cases hi : i = p.1
    · subst hi
      rcases self with ⟨hp, -⟩ | ⟨hsame, -⟩
      · refine ⟨N, hN, ?_⟩
        rw [← hp]
        exact hmem
      · exact hkeeps (hsame ▸ hrole)
    · exact hkeeps (center i hi ▸ hrole)
  case child =>
    intro x c hlink hserved
    rw [link] at hlink
    rw [served] at hserved
    rw [hnetwork]
    rcases h.routes.child x c hlink hserved with ⟨connection, hm⟩ | ⟨event, hm⟩ | ⟨M, hM, hin⟩
    · rcases child _ hm with hin | ⟨-, event, heq⟩
      · exact .inl ⟨connection, hin⟩
      · cases heq
    · rcases child _ hm with hin | ⟨hp, event', heq⟩
      · exact .inr (.inl ⟨event, hin⟩)
      · -- the handshake that is handled here brings the route
        obtain rfl : x = p := congrArg Prod.fst heq
        rcases self with ⟨hcenter, -⟩ | ⟨-, c', hc', -, hM⟩
        · exact absurd hcenter hp
        · rw [hlink] at hc'
          cases hc'
          exact .inr (.inr ⟨_, hM, hmem⟩)
    · exact .inr (.inr ⟨M, hM, hroutes _ _ hin⟩)

/-- A route to the subnet of board `p` is added. -/
theorem addRoute (h : Tree root network t) (short : t.ShortPrefixes)
    (proper : ProperNetwork network.addr network.mask) {N : Network}
    (hN : t.network p.1 = some N) (prov : Provisioned root network u) (one : OneServed u)
    (link : u.link = t.link) (served : u.served = t.served) (hnetwork : u.network = t.network)
    (boards : Boards u) (sub : u.pending.Sublist t.pending)
    (table : ∀ i, (u.nodes i).table = if i = p.1 then
      routingTableAdd (t.nodes i).table (getNodeSubnet N p.2).addr (getNodeSubnet N p.2).mask
        p.2.output else (t.nodes i).table)
    (center : ∀ i, i ≠ p.1 → u.role (i, .center) = t.role (i, .center))
    (self : (p.2 = .center ∧ u.role p = .home ⟨true⟩ ∧ t.role p ≠ .home ⟨true⟩) ∨
      (u.role (p.1, .center) = t.role (p.1, .center) ∧
        ∃ c, t.link p = some c ∧ c.1 ∈ t.served p ∧ t.network c.1 = some (getNodeSubnet N p.2)))
    (child : ∀ m, m ∈ t.pending → m ∈ u.pending ∨ (p.2 ≠ .center ∧ ∃ event,
      m = (p, .handshake event))) : Tree root network u := by
  refine ⟨prov, one, h.links.frame link served, boards, ?_,
    h.addRoute_routes short proper hN link served hnetwork table center self child, ?_⟩
  · refine h.mail.handled link served sub (fun i M hM => by rw [hnetwork]; exact hM) ?_
    intro x c _ _ hsome hnone
    rw [hnetwork] at hsome
    exact absurd hnone hsome
  · refine h.uplinks.frame (fun i => ?_) hnetwork link served
    rw [Mesh.gateway, table]
    split
    · exact add_defaultGateway (mt Network.eq_zero_iff.mpr (getNodeSubnet_ne_zero N p.2)) _ _
    · rfl

theorem sibl (h : Tree root network t) (short : t.ShortPrefixes)
    (proper : ProperNetwork network.addr network.mask) (hs : t.step (.sibl p) = some u)
    (prov : Provisioned root network u) (one : OneServed u) : Tree root network u := by
  obtain ⟨ev, rest, hin, ⟨state, hrole, rfl, hu⟩ | ⟨result, hd, hnone, rfl, -⟩⟩ := sibl_cases hs
  · exact h.rootStart hin hrole hu prov one
  have hready := ready_pop t p rest
  have hfirst : ev ∈ t.inbox p := by
    rw [hin]
    exact List.mem_cons_self
  have hstored : ∀ e ∈ ((t.nodes p.1).pop p.2 rest).inbox p.2, e ∈ t.inbox p := by
    intro e he
    exact Node.mem_of_mem_pop hin he
  have hskip : result = (t.role p, []) → Tree root network
      (t.act p (((t.nodes p.1).pop p.2 rest).act p.2 result) result.2) := by
    rintro rfl
    exact h.quiet _ hready prov one (.inl rfl) hstored rfl rfl fun _ => rfl
  cases hrole : t.role p with
  | forwarder state =>
      rw [hrole] at hd
      rcases h.boards.stored p ev hfirst with rfl | ⟨event, rfl⟩
      · cases hd
        exact hskip (by rw [hrole])
      · have hN := h.prov.provision p event hfirst
        by_cases hwith : state.globalState = .withNetwork
        · simp only [dispatchSibl, RtRole.ofForwarder, Sibling.onProvision, if_pos hwith] at hd
          cases hd
          exact hskip (by rw [hrole])
        · simp only [dispatchSibl, RtRole.ofForwarder, Sibling.onProvision, if_neg hwith] at hd
          cases hd
          exact h.quiet _ hready prov one (.inr ⟨Sibling.provisioned p.2 state event,
            event.network, rfl, h.prov.kinds.ne_center hrole, hN, rfl, rfl⟩) hstored rfl rfl
            fun _ => rfl
  | home state =>
      have hp : p.2 = .center := by
        by_contra hne
        obtain ⟨other, hother⟩ := h.prov.kinds.forwarder p.1 p.2 hne
        exact absurd (hrole.symm.trans hother) RtRole.noConfusion
      rw [hrole] at hd
      rcases h.boards.stored p ev hfirst with rfl | ⟨event, rfl⟩
      · cases hd
        exact h.quiet _ hready prov one (.inl hrole.symm) hstored rfl rfl fun _ => rfl
      · have hN := h.prov.provision p event hfirst
        by_cases hprov : state.isProvisioned = true
        · simp only [dispatchSibl, RtRole.ofHome, Home.onProvision, if_pos hprov] at hd
          cases hd
          exact hskip (by rw [hrole])
        · simp only [dispatchSibl, RtRole.ofHome, Home.onProvision, if_neg hprov] at hd
          cases hd
          refine h.addRoute short proper hN prov one rfl rfl rfl ?_ ?_ ?_ ?_ (.inl ⟨hp, ?_, ?_⟩) ?_
          · exact h.boards.act _ t hready rfl (fun _ _ => id) (.inr (.inl ⟨_, rfl⟩)) hstored
              (by simp [RtAction.siblEvent])
          · simp [act, RtAction.peerMessage]
          · exact act_table _ t hready rfl
          · intro i hi
            rw [act_role _ t hready rfl, if_neg]
            rintro rfl
            exact hi rfl
          · rw [act_role _ t hready rfl, if_pos rfl]
          · intro htrue
            rw [hrole] at htrue
            cases htrue
            exact hprov rfl
          · exact fun m hm => .inl (List.mem_append_left _ hm)
  | root state =>
      rw [hrole] at hd hnone
      rcases h.boards.stored p ev hfirst with rfl | ⟨event, rfl⟩
      · cases hnone
      · cases hd
        exact hskip (by rw [hrole])

/-! ## Peer events -/

/-- A board with its node's network handles its connection and sends its handshake over the
link; on that link the one takes the place of the other. -/
theorem answer_mail (h : Tree root network t) {state : RtForwarderState} {connection : Network}
    {N : Network} (hN : t.network p.1 = some N) (hholds : state.Holds N p.2)
    (hlink : t.link p = some q) (hpend : (p, .connected connection) ∈ t.pending)
    (link : u.link = t.link) (served : u.served = t.served) (hnetwork : u.network = t.network)
    (hpending : u.pending = t.pending.erase (p, .connected connection) ++
      [(q, .handshake (Peer.handshakeOf state))]) : Mail u := by
  have hback := h.prov.linkSymm p q hlink
  have hmem : ∀ {x ev}, (x, ev) ∈ u.pending → (x, ev) ∈ t.pending ∨
      (x = q ∧ ev = .handshake (Peer.handshakeOf state)) := by
    intro x ev hin
    rw [hpending, List.mem_append, List.mem_singleton] at hin
    rcases hin with hold | hnew
    · exact .inl (List.mem_of_mem_erase hold)
    · exact .inr (Prod.mk.inj hnew)
  have hcount : ∀ x c, t.link x = some c →
      u.pending.countP (isNews x c) = t.pending.countP (isNews x c) := by
    intro x c hxc
    have hends : q = c ↔ p = x := by
      constructor
      · rintro rfl
        have hx := h.prov.linkSymm x q hxc
        rw [hback] at hx
        exact Option.some.inj hx
      · rintro rfl
        rw [hlink] at hxc
        exact Option.some.inj hxc
    rw [hpending, List.countP_append, List.countP_erase, List.countP_singleton]
    by_cases hx : p = x
    · have hpos : 0 < t.pending.countP (isNews x c) :=
        List.countP_pos_iff.mpr ⟨_, hpend, by simp [isNews, hx]⟩
      rw [if_pos ⟨hpend, by simp [isNews, hx]⟩, if_pos (by simp [isNews, hends.mpr hx])]
      omega
    · rw [if_neg (by simp [isNews, hx]), if_neg (by simp [isNews, hends, hx])]
      omega
  constructor
  case linked =>
    intro x ev hin
    rw [link]
    rcases hmem hin with hold | ⟨rfl, -⟩
    · exact h.mail.linked x ev hold
    · exact ⟨p, hback⟩
  case kind =>
    intro x ev hin
    rcases hmem hin with hold | ⟨-, rfl⟩
    · exact h.mail.kind x ev hold
    · exact .inr ⟨_, rfl⟩
  case once =>
    intro x c hxc hc
    rw [link] at hxc
    rw [served] at hc
    rw [hcount x c hxc]
    exact h.mail.once x c hxc hc
  case read =>
    intro x c hxc hc hsome
    rw [link] at hxc
    rw [served] at hc
    rw [hnetwork] at hsome
    rw [hcount x c hxc]
    exact h.mail.read x c hxc hc hsome
  case external =>
    intro x c event hxc hc hin
    rw [link] at hxc
    rw [served] at hc
    rw [hnetwork]
    rcases hmem hin with hold | ⟨rfl, heq⟩
    · exact h.mail.external x c event hxc hc hold
    · cases heq
      rw [hback] at hxc
      cases hxc
      rw [hN, Peer.handshakeOf, hholds.1]

/-- A board whose node has a network opens its connection. -/
theorem answer (h : Tree root network t) {state : RtForwarderState} {connection : Network}
    (hrole : t.role p = .forwarder state) (hnot : state.globalState ≠ .withoutNetwork)
    (hpend : (p, .connected connection) ∈ t.pending)
    (hu : u = (t.take p (.connected connection)).act p
      ((t.nodes p.1).act p.2 (RtRole.ofForwarder (Peer.onPeerConnected state)))
      (Peer.onPeerConnected state).2)
    (prov : Provisioned root network u) (one : OneServed u) : Tree root network u := by
  obtain ⟨q, hlink⟩ := h.mail.linked p _ hpend
  obtain ⟨N, hN, hholds⟩ := h.boards.holds p state hrole hnot
  have hready := ready_self t p
  have hpending : u.pending = t.pending.erase (p, .connected connection) ++
      [(q, .handshake (Peer.handshakeOf state))] := by
    rw [hu]
    have hsend : (t.take p (.connected connection)).send p
        [.handshake (Peer.handshakeOf state)] = [(q, .handshake (Peer.handshakeOf state))] := by
      simp [send, take, hlink]
    exact congrArg (t.pending.erase (p, .connected connection) ++ ·) hsend
  have hstays : ∀ m ∈ t.pending, m ≠ (p, .connected connection) → m ∈ u.pending := by
    intro m hm hne
    rw [hpending]
    exact List.mem_append_left _ ((List.mem_erase_of_ne hne).mpr hm)
  have hroles : ∀ x, u.role x =
      if x = p then .forwarder { state with localState := .connected } else t.role x := by
    rw [hu]
    exact act_role (RtRole.ofForwarder (Peer.onPeerConnected state)) _ hready rfl
  have htable : ∀ i, (u.nodes i).table = (t.nodes i).table := by
    intro i
    have hact := act_table (RtRole.ofForwarder (Peer.onPeerConnected state))
      (t.take p (.connected connection)) hready rfl i
    rw [hu]
    exact hact.trans (ite_self _)
  have hnetwork : u.network = t.network := by rw [hu]; rfl
  have hulink : u.link = t.link := by rw [hu]; rfl
  have huserved : u.served = t.served := by rw [hu]; rfl
  refine ⟨prov, one, h.links.frame hulink huserved, ?_,
    h.answer_mail hN hholds hlink hpend hulink huserved hnetwork hpending, ?_, ?_⟩
  · rw [hu]
    exact h.boards.act (RtRole.ofForwarder (Peer.onPeerConnected state)) _ hready rfl
      (fun _ _ => id) (.inr (.inr ⟨_, N, rfl, hN, hholds⟩)) (fun _ => id)
      (by simp [RtRole.ofForwarder, Peer.onPeerConnected, RtAction.siblEvent])
  · refine h.routes.frame ?_ ?_ ?_ hulink huserved (fun i M hM => by rw [hnetwork]; exact hM) ?_
    · intro i
      rw [htable]
      exact h.routes.sorted i
    · intro i
      rw [Mesh.routes, htable, Mesh.routes]
    · intro i
      rw [hroles, if_neg]
      rintro rfl
      exact h.prov.linkForwarder _ _ hlink rfl
    · intro x c hxc _ hevents
      rcases hevents with ⟨other, hm⟩ | ⟨event, hm⟩
      · by_cases heq : (c, RtPeerEvent.connected other) = (p, .connected connection)
        · -- the handshake is what the connection was waiting for
          obtain rfl : c = p := congrArg Prod.fst heq
          have hx := h.prov.linkSymm x c hxc
          rw [hlink] at hx
          cases hx
          refine .inr ⟨Peer.handshakeOf state, ?_⟩
          rw [hpending]
          exact List.mem_append_right _ (List.mem_singleton_self _)
        · exact .inl ⟨other, hstays _ hm heq⟩
      · exact .inr ⟨event, hstays _ hm fun heq => by cases heq⟩
  · refine h.uplinks.frame (fun i => ?_) hnetwork hulink huserved
    rw [Mesh.gateway, htable, Mesh.gateway]

/-- The uplink of the node that gets its network is the board it came through. -/
theorem provided_uplinks (h : Tree root network t) {N : Network} (hs : Provides t u p N)
    (hroot : p.1 ≠ root) (hlink : t.link p = some q) (hserved : p.1 ∈ t.served q)
    (gateway : ∀ i, u.gateway i = if i = p.1 then p.2.output else t.gateway i) :
    Uplinks root u where
  up i hi hN := by
    rw [hs.link, hs.served, gateway]
    by_cases hp : i = p.1
    · subst hp
      exact ⟨p.2, q, hlink, hserved, if_pos rfl⟩
    · rw [hs.network, Function.update_of_ne hp] at hN
      rw [if_neg hp]
      exact h.uplinks.up i hi hN
  ends i hi := by
    have hp : i ≠ p.1 := by
      rintro rfl
      rcases hi with hi | hi
      · exact hroot hi
      · rw [hs.network_self] at hi
        cases hi
    rw [hs.network, Function.update_of_ne hp] at hi
    rw [gateway, if_neg hp]
    exact h.uplinks.ends i hi

/-- The handshake by which a node gets its network. -/
theorem provided (h : Tree root network t) {state : RtForwarderState} {event : RtPeerHandshake}
    (hrole : t.role p = .forwarder state) (hwithout : state.globalState = .withoutNetwork)
    (hin : t.inbox p = []) (hpend : (p, .handshake event) ∈ t.pending)
    (hu : u = ((t.take p (.handshake event)).record p.1 (some event.providedNetwork)).act p
      ((t.nodes p.1).act p.2 (RtRole.ofForwarder (Peer.onHandshake p.2 state event)))
      (Peer.onHandshake p.2 state event).2)
    (prov : Provisioned root network u) (one : OneServed u) : Tree root network u := by
  obtain ⟨hroot, hnone, -, -, hprovides⟩ := h.prov.handshakeProvides hrole hwithout hin hpend
  rw [← hu] at hprovides
  obtain ⟨q, hlink⟩ := h.mail.linked p _ hpend
  have hback := h.prov.linkSymm p q hlink
  have hready := ready_self t p
  have hnodes : ((t.take p (.handshake event)).record p.1 (some event.providedNetwork)).nodes =
      t.nodes := record_nodes _ _ _
  -- the joining node serves nobody, so the link leads down to it
  have hserves : ∀ i, i ∉ t.served p := by
    intro i hi
    exact h.prov.ap_network (h.one.forwarder p i hi) (h.one.ap p i hi) hnone
  have hserved : p.1 ∈ t.served q := (h.links.down p q hlink).resolve_left (hserves q.1)
  have hkept : ∀ i N, t.network i = some N → u.network i = some N := fun _ _ =>
    hprovides.network_of_some hnone
  rw [Peer.onHandshake_fresh hwithout] at hu
  have hpending : u.pending = t.pending.erase (p, .handshake event) := by
    rw [hu]
    simp [act, take, RtAction.peerMessage]
  have htable : ∀ i, (u.nodes i).table =
      if i = p.1 then routingTableAdd (t.nodes i).table 0 0 p.2.output
      else (t.nodes i).table := by
    rw [hu]
    exact act_table (.forwarder _, _) _ hready hnodes
  have hroutes : ∀ i, u.routes i = t.routes i := by
    intro i
    rw [Mesh.routes, htable]
    split
    · rw [add_default]
      rfl
    · rfl
  have hgateway : ∀ i, u.gateway i = if i = p.1 then p.2.output else t.gateway i := by
    intro i
    rw [Mesh.gateway, htable]
    split
    · rw [add_default]
    · rfl
  refine ⟨prov, one, h.links.frame hprovides.link hprovides.served, ?_, ?_, ?_, ?_⟩
  · rw [hu]
    refine h.boards.act (.forwarder _, _) _ hready hnodes (fun i N hN => ?_)
      (.inr (.inr ⟨_, event.providedNetwork, rfl, Function.update_self _ _ _, rfl, rfl⟩))
      (fun _ => id) (by simp [RtAction.siblEvent])
    rw [hu] at hkept
    exact hkept i N hN
  · refine h.mail.handled hprovides.link hprovides.served ?_ hkept ?_
    · rw [hpending]
      exact List.erase_sublist
    · intro x c hxc hc hsome hnew
      have hi : c.1 = p.1 := by
        by_contra hne
        rw [hprovides.network, Function.update_of_ne hne] at hsome
        exact hsome hnew
      obtain rfl : x = q := h.links.server x q p.1 (hi ▸ hc) hserved
      rw [hback] at hxc
      cases hxc
      have hle := h.mail.once x p hback hserved
      rw [hpending, List.countP_erase, if_pos ⟨hpend, by simp [isNews]⟩]
      omega
  · refine h.routes.frame ?_ hroutes ?_ hprovides.link hprovides.served hkept ?_
    · intro i
      rw [htable]
      split
      · exact (h.routes.sorted i).add _ _ _
      · exact h.routes.sorted i
    · intro i
      apply hprovides.role
      rintro rfl
      exact h.prov.linkForwarder _ _ hlink rfl
    · rw [hpending]
      intro x c _ hc hevents
      rcases hevents with ⟨other, hm⟩ | ⟨other, hm⟩
      · exact .inl ⟨other, (List.mem_erase_of_ne fun heq => by cases heq).mpr hm⟩
      · refine .inr ⟨other, (List.mem_erase_of_ne ?_).mpr hm⟩
        intro heq
        obtain rfl : x = p := congrArg Prod.fst heq
        exact hserves c.1 hc
  · exact h.provided_uplinks hprovides hroot hlink hserved hgateway

/-- The handshake by which a node learns the network behind one of its access points. -/
theorem learns (h : Tree root network t) (short : t.ShortPrefixes)
    (proper : ProperNetwork network.addr network.mask) {state : RtForwarderState}
    {event : RtPeerHandshake} (hrole : t.role p = .forwarder state)
    (hnot : state.globalState ≠ .withoutNetwork) (hpend : (p, .handshake event) ∈ t.pending)
    (hu : u = (t.take p (.handshake event)).act p
      ((t.nodes p.1).act p.2 (RtRole.ofForwarder (Peer.onHandshake p.2 state event)))
      (Peer.onHandshake p.2 state event).2)
    (prov : Provisioned root network u) (one : OneServed u) : Tree root network u := by
  obtain ⟨q, hlink⟩ := h.mail.linked p _ hpend
  obtain ⟨N, hN, -⟩ := h.boards.holds p state hrole hnot
  have hready := ready_self t p
  have hserved : q.1 ∈ t.served p := by
    refine (h.links.down p q hlink).resolve_right fun hp => ?_
    -- no second handshake comes down to a node with a network
    have hzero := h.mail.read q p (h.prov.linkSymm p q hlink) hp (by simp [hN])
    exact List.countP_eq_zero.mp hzero _ hpend (by simp [isNews])
  have hexternal := h.mail.external p q event hlink hserved hpend
  obtain ⟨M, hM, hsubnet, -⟩ := h.subnet hserved hexternal
  rw [hN] at hM
  cases hM
  have hevent : Peer.onHandshake p.2 state event =
      (state, [.addGlobalRoute (getNodeSubnet N p.2) p.2]) := by
    rw [Peer.onHandshake_known hnot, hsubnet]
  rw [hevent] at hu
  have hpending : u.pending = t.pending.erase (p, .handshake event) := by
    rw [hu]
    simp [act, take, RtAction.peerMessage]
  have hroles : ∀ x, u.role x = t.role x := by
    intro x
    have hact := act_role (.forwarder state, [.addGlobalRoute (getNodeSubnet N p.2) p.2])
      (t.take p (.handshake event)) hready rfl x
    rw [hu]
    refine hact.trans ?_
    split
    · next hx => rw [hx, hrole]
    · rfl
  have hcenter : p.2 ≠ .center := h.prov.linkForwarder p q hlink
  refine h.addRoute short proper hN prov one (by rw [hu]; rfl) (by rw [hu]; rfl) (by rw [hu]; rfl)
    ?_ ?_ ?_ (fun i _ => hroles _) (.inr ⟨hroles _, q, hlink, hserved, hsubnet ▸ hexternal⟩) ?_
  · rw [hu]
    exact h.boards.act (.forwarder state, _) _ hready rfl (fun _ _ => id) (.inl hrole.symm)
      (fun _ => id) (by simp [RtAction.siblEvent])
  · rw [hpending]
    exact List.erase_sublist
  · rw [hu]
    exact act_table (.forwarder state, _) _ hready rfl
  · intro m hm
    rw [hpending]
    by_cases heq : m = (p, .handshake event)
    · exact .inr ⟨hcenter, event, heq⟩
    · exact .inl ((List.mem_erase_of_ne heq).mpr hm)

theorem peer (h : Tree root network t) (short : t.ShortPrefixes)
    (proper : ProperNetwork network.addr network.mask) {ev : RtPeerEvent}
    (hg : t.grows root (.peer p ev) = true) (hs : t.step (.peer p ev) = some u)
    (prov : Provisioned root network u) (one : OneServed u) : Tree root network u := by
  obtain ⟨hpend, hin, ⟨state, event, hrole, hwithout, rfl, hu⟩ | ⟨result, hd, hnone, hu, -⟩⟩ :=
    peer_cases hs
  · exact h.provided hrole hwithout hin hpend hu prov one
  · obtain ⟨q, hlink⟩ := h.mail.linked p ev hpend
    obtain ⟨state, hrole⟩ := h.prov.kinds.forwarder p.1 p.2 (h.prov.linkForwarder p q hlink)
    change t.role p = .forwarder state at hrole
    rw [hrole] at hd hnone
    rcases h.mail.kind p ev hpend with ⟨connection, rfl⟩ | ⟨event, rfl⟩
    · have hnot : state.globalState ≠ .withoutNetwork := by
        simpa [grows, hrole, RtRole.fresh] using hg
      cases hd
      exact h.answer hrole hnot hpend hu prov one
    · have hnot : state.globalState ≠ .withoutNetwork := by
        simpa [RtRole.provisionedBy, RtRole.fresh] using hnone
      cases hd
      exact h.learns short proper hrole hnot hpend hu prov one

/-! ## Runs -/

theorem tick (h : Tree root network t) (i : ι) (dtMs : BitVec 32)
    (hs : (meshMachine ι).step t (.tick i dtMs) = some u)
    (prov : Provisioned root network u) (one : OneServed u) : Tree root network u := by
  have hskip : rtOnTick (t.role (i, .center)) dtMs = (t.role (i, .center), []) := by
    cases hrole : t.role (i, .center) with
    | root state =>
        have hcalm := h.boards.calm i state hrole
        simp [rtOnTick, RtRole.ofRoot, Root.onTick, hcalm]
    | _ => rfl
  cases hs
  simp only [hskip] at prov one ⊢
  exact h.quiet (t.role (i, .center), []) (ready_self t (i, .center)) prov one (.inl rfl)
    (fun _ => id) rfl rfl fun _ => rfl

theorem step (h : Tree root network t) (short : t.ShortPrefixes)
    (proper : ProperNetwork network.addr network.mask) {l : MeshLabel ι}
    (hg : t.grows root l = true) (hs : (meshMachine ι).step t l = some u) :
    Tree root network u := by
  have prov := h.prov.step (grows_linksAp hg) hs
  have one := h.one.step (grows_linksAp hg) (h.servesOne hg hs) hs
  cases l with
  | connect p q connection => exact h.connect hg hs
  | disconnect p connection => cases hg
  | sibl p => exact h.sibl short proper hs prov one
  | peer p ev => exact h.peer short proper hg hs prov one
  | lose p ev => cases hg
  | tick i dtMs => exact h.tick i dtMs hs prov one

end Tree

/-- A network is never given back. -/
theorem Provisioned.network_mono (h : Provisioned root network t) {l : MeshLabel ι}
    (hs : (meshMachine ι).step t l = some u) {i : ι} {N : Network} (hN : t.network i = some N) :
    u.network i = some N := by
  have hrecord : ∀ {x M}, t.network x = none →
      Function.update t.network x (some M) i = some N := by
    intro x M hnone
    rw [Function.update_of_ne]
    · exact hN
    · rintro rfl
      rw [hnone] at hN
      cases hN
  cases l with
  | connect p q connection =>
      obtain ⟨-, -, -, rfl⟩ := step_connect hs
      exact hN
  | disconnect p connection =>
      obtain ⟨q, -, rfl⟩ := step_disconnect hs
      exact hN
  | sibl p =>
      obtain ⟨ev, rest, hin, ⟨state, hrole, rfl, rfl⟩ | ⟨result, -, -, rfl, -⟩⟩ := sibl_cases hs
      · obtain ⟨hp, hnone, -⟩ := h.rootStarts hin hrole
        exact hrecord (by rw [hp]; exact hnone)
      · exact hN
  | peer p ev =>
      obtain ⟨hpend, hin, ⟨state, event, hrole, hwithout, rfl, rfl⟩ | ⟨result, -, -, rfl, -⟩⟩ :=
        peer_cases hs
      · obtain ⟨-, hnone, -⟩ := h.handshakeProvides hrole hwithout hin hpend
        exact hrecord hnone
      · exact hN
  | lose p ev =>
      obtain ⟨-, -, rfl⟩ := step_lose hs
      exact hN
  | tick j dtMs =>
      cases hs
      exact hN

/-- Growing makes a tree while the prefixes leave room for the boards. -/
theorem Tree.run (proper : ProperNetwork network.addr network.mask)
    (run : (meshMachine ι).Executes (fun t l => t.grows root l = true)
      (Mesh.start root network) t) (short : t.ShortPrefixes) : Tree root network t := by
  induction run with
  | refl => exact .start root network
  | tail before hg hs ih =>
      have prov := Provisioned.run before fun _ _ => grows_linksAp
      have earlier : Mesh.ShortPrefixes _ :=
        fun i N hN => short i N (prov.network_mono hs hN)
      exact (ih earlier).step earlier proper hg hs

end Mesh

end I4A
