import Mathlib.Logic.Function.Basic

/-! # Boards of a node and components of the ring

`orientation_t` and `N_DEVICES` of `routing_config.h`, and `component_id_t` of
`ring_share.h`.
-/

namespace I4A

/-- `orientation_t`: the five boards of a node. -/
inductive Orientation where
  | north | south | east | west | center
  deriving DecidableEq, Repr

namespace Orientation

/-- The value of the enumerator in `routing_config.h`. -/
def val : Orientation → Nat
  | .north => 1
  | .south => 2
  | .east => 3
  | .west => 4
  | .center => 5

/-- The byte a board's orientation becomes as a routing table output. -/
def output (o : Orientation) : UInt8 := UInt8.ofNat o.val

/-- The board after this one on the ring, `(orientation % N_DEVICES) + 1`. -/
def next : Orientation → Orientation
  | .north => .south
  | .south => .east
  | .east => .west
  | .west => .center
  | .center => .north

/-- The board an output byte names, if it names one. -/
def ofOutput (b : UInt8) : Option Orientation :=
  if b = 1 then some .north
  else if b = 2 then some .south
  else if b = 3 then some .east
  else if b = 4 then some .west
  else if b = 5 then some .center
  else none

/-- All five boards in token order. -/
def all : List Orientation := [.north, .south, .east, .west, .center]

/-- The other four boards of the node, the ones a broadcast is handed to. -/
def siblings (o : Orientation) : List Orientation := all.filter (· ≠ o)

def nDevices : Nat := 5

theorem val_pos (o : Orientation) : 0 < o.val := by cases o <;> decide

theorem val_le (o : Orientation) : o.val ≤ nDevices := by cases o <;> decide

theorem val_injective {o o' : Orientation} (h : o.val = o'.val) : o = o' := by
  revert h
  cases o <;> cases o' <;> decide

@[simp] theorem ofOutput_output (o : Orientation) : ofOutput o.output = some o := by
  cases o <;> decide

theorem output_injective {o o' : Orientation} (h : o.output = o'.output) : o = o' := by
  have he := congrArg ofOutput h
  simpa using he

@[simp] theorem output_inj {o o' : Orientation} : o.output = o'.output ↔ o = o' :=
  ⟨output_injective, congrArg output⟩

@[simp] theorem mem_all (o : Orientation) : o ∈ all := by cases o <;> decide

@[simp] theorem mem_siblings {o o' : Orientation} : o' ∈ o.siblings ↔ o' ≠ o := by
  simp [siblings]

theorem next_ne (o : Orientation) : o.next ≠ o := by cases o <;> decide

/-- Sum of one count a board over the whole node. -/
def total (f : Orientation → Nat) : Nat :=
  f .north + f .south + f .east + f .west + f .center

theorem le_total (f : Orientation → Nat) (o : Orientation) : f o ≤ total f := by
  unfold total
  cases o <;> omega

theorem total_update (f : Orientation → Nat) (o : Orientation) (n : Nat) :
    total (Function.update f o n) + f o = total f + n := by
  unfold total
  cases o <;> simp [Function.update] <;> omega

theorem total_move {Board : Type*} (f : Orientation → Board → Nat) (boards : Orientation → Board)
    (o : Orientation) (b : Board) :
    (total fun o' => f o' (Function.update boards o b o')) + f o (boards o) =
      (total fun o' => f o' (boards o')) + f o b := by
  have hmove : (fun o' => f o' (Function.update boards o b o')) =
      Function.update (fun o' => f o' (boards o')) o (f o b) := by
    funext o'
    by_cases h : o' = o
    · subst h
      simp
    · simp [h]
  rw [hmove]
  exact total_update _ o (f o b)

theorem two_le_total {f : Orientation → Nat} {o o' : Orientation} (hne : o ≠ o')
    (h : 0 < f o) (h' : 0 < f o') : 2 ≤ total f := by
  unfold total
  revert hne
  cases o <;> cases o' <;> intro hne <;> first | exact absurd rfl hne | omega

end Orientation

/-- `component_id_t`: the components multiplexed over `ring_share`. -/
inductive ComponentId where
  | sync | routing | sharedState | channelManager | resetManager | infoManager | priorityManager
  deriving DecidableEq, Repr

end I4A
