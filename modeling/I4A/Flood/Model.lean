import I4A.Core.Progress
import I4A.Mesh.Model
import I4A.Node.Adoption

/-! # Messages between boards, in any order

The boards of a network and the messages on their way to them, over the rings and
over the links. Any of them may be handled next. What else changes a board or a
link in between is not looked at here.
-/

namespace I4A

structure Flood (ι : Type*) where
  roles : Port ι → RtRole
  link : Port ι → Option (Port ι)
  /-- Messages with the board they are for. -/
  flight : List (Port ι × RtEvent)

inductive FloodLabel (ι : Type*) where
  | deliver (p : Port ι) (ev : RtEvent)
  /-- Another handler or task of the board changes its role state. -/
  | other (p : Port ι) (role : RtRole)
  | relink (link : Port ι → Option (Port ι))

namespace Flood

variable {ι : Type*} [DecidableEq ι]

/-- What the calls of board `p` put on the way: a broadcast to each of the other four boards of
its node, peer messages to the board it is linked to. -/
def sent (t : Flood ι) (p : Port ι) (actions : List RtAction) : List (Port ι × RtEvent) :=
  (siblEvents actions).flatMap (fun ev => p.2.siblings.map fun o => ((p.1, o), .sibl ev)) ++
    match t.link p with
    | some q => (peerMessages actions).map fun ev => (q, .peer ev)
    | none => []

/-- Board `p` has handled `ev`. -/
def handled (t : Flood ι) (p : Port ι) (ev : RtEvent) (result : RtRole × List RtAction) :
    Flood ι where
  roles := Function.update t.roles p result.1
  link := t.link
  flight := t.flight.erase (p, ev) ++ t.sent p result.2

def step (t : Flood ι) : FloodLabel ι → Option (Flood ι)
  | .deliver p ev =>
      if (p, ev) ∈ t.flight then (dispatch p.2 (t.roles p) ev).map (t.handled p ev) else none
  | .other p role => some { t with roles := Function.update t.roles p role }
  | .relink link => some { t with link := link }

end Flood

def floodMachine (ι : Type*) [DecidableEq ι] : Machine (Flood ι) (FloodLabel ι) := ⟨Flood.step⟩

namespace Flood

variable {ι : Type*} [DecidableEq ι] {t u : Flood ι} {p : Port ι} {ev : RtEvent}

theorem step_deliver (h : t.step (.deliver p ev) = some u) :
    (p, ev) ∈ t.flight ∧ ∃ result, dispatch p.2 (t.roles p) ev = some result ∧
      u = t.handled p ev result := by
  simp only [step] at h
  by_cases hmem : (p, ev) ∈ t.flight
  · rw [if_pos hmem] at h
    obtain ⟨result, hresult, hu⟩ := Option.map_eq_some_iff.mp h
    exact ⟨hmem, result, hresult, hu.symm⟩
  · rw [if_neg hmem] at h
    cases h

omit [DecidableEq ι] in
theorem mem_sent {q : Port ι} {actions : List RtAction} (h : (q, ev) ∈ t.sent p actions) :
    (∃ event ∈ siblEvents actions, ev = .sibl event) ∨
      (∃ event ∈ peerMessages actions, ev = .peer event) := by
  rw [sent, List.mem_append] at h
  rcases h with hsibl | hpeer
  · obtain ⟨event, hevent, hto⟩ := List.mem_flatMap.mp hsibl
    obtain ⟨o, -, heq⟩ := List.mem_map.mp hto
    cases heq
    exact .inl ⟨event, hevent, rfl⟩
  · cases hlink : t.link p with
    | none =>
        rw [hlink] at hpeer
        exact absurd hpeer List.not_mem_nil
    | some r =>
        rw [hlink] at hpeer
        obtain ⟨event, hevent, heq⟩ := List.mem_map.mp hpeer
        cases heq
        exact .inr ⟨event, hevent, rfl⟩

end Flood

end I4A
