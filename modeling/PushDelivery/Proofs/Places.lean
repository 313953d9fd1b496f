import Mathlib.Algebra.BigOperators.Group.Multiset.Basic
import Mathlib.Tactic.Abel
import PushDelivery.Client.World

namespace PushDelivery

inductive Place where
  /-- In a message that the pool has not dealt with. -/
  | message
  | waiter
  | command (connection : Nat)
  | retry (connection : Nat)
  | stream (connection stream : Nat)
deriving DecidableEq, Repr

/-- A notification without an outcome, and the stream on which an answer is waited for. -/
inductive Holding where
  | unwritten (p : Dispatch)
  | written (connection stream : Nat) (p : Dispatch)
deriving DecidableEq, Repr

namespace Holding

def dispatch : Holding → Dispatch
  | unwritten p => p
  | written _ _ p => p

def id (h : Holding) : Nat :=
  h.dispatch.id

@[simp] theorem dispatch_unwritten (p : Dispatch) : (unwritten p).dispatch = p := rfl

@[simp] theorem dispatch_written (c n : Nat) (p : Dispatch) : (written c n p).dispatch = p := rfl

@[simp] theorem id_unwritten (p : Dispatch) : (unwritten p).id = p.id := rfl

@[simp] theorem id_written (c n : Nat) (p : Dispatch) : (written c n p).id = p.id := rfl

end Holding

def Place.holding : Place → Dispatch → Holding
  | stream c n, p => .written c n p
  | _, p => .unwritten p

/-- The notification that a message to the pool carries. -/
def PoolMessage.dispatch? : PoolMessage → Option Dispatch
  | submit p | resubmit p => some p
  | _ => none

/-- Notifications that are not written, whatever queue they are in. -/
def unwritten (ps : List Dispatch) : Multiset Holding :=
  ↑(ps.map Holding.unwritten)

@[simp] theorem unwritten_nil : unwritten [] = 0 := rfl

@[simp] theorem unwritten_cons (p : Dispatch) (ps : List Dispatch) :
    unwritten (p :: ps) = .unwritten p ::ₘ unwritten ps := rfl

theorem unwritten_singleton (p : Dispatch) : unwritten [p] = {.unwritten p} := rfl

@[simp] theorem unwritten_append (ps qs : List Dispatch) :
    unwritten (ps ++ qs) = unwritten ps + unwritten qs := by
  simp [unwritten]

theorem mem_unwritten {h : Holding} {ps : List Dispatch} :
    h ∈ unwritten ps ↔ ∃ p ∈ ps, .unwritten p = h := by
  simp [unwritten]

namespace OpenStreams

/-- What waits for an answer on a connection. -/
def holdings (c : Nat) (s : OpenStreams) : Multiset Holding :=
  ↑(s.slots.map fun e => Holding.written c e.1 e.2)

end OpenStreams

namespace Connection

def places (c : Connection) : List (Place × Dispatch) :=
  c.commands.map (fun p => (.command c.id, p)) ++ c.retries.map (fun p => (.retry c.id, p)) ++
    c.streams.slots.map fun e => (.stream c.id e.1, e.2)

def holdings (c : Connection) : Multiset Holding :=
  unwritten c.commands + unwritten c.retries + c.streams.holdings c.id

theorem coe_places (c : Connection) :
    (↑(c.places.map fun x => x.1.holding x.2) : Multiset Holding) = c.holdings := by
  simp [places, holdings, unwritten, OpenStreams.holdings, Place.holding, Function.comp_def]

end Connection

namespace World

/-- Every notification that has no outcome, with the place where it is. -/
def places (w : World) : List (Place × Dispatch) :=
  (w.channel.filterMap PoolMessage.dispatch?).map (fun p => (.message, p)) ++
    w.pool.waiters.map (fun x => (.waiter, x.dispatch)) ++
    w.connections.flatMap Connection.places

def holdings (w : World) : Multiset Holding :=
  unwritten (w.channel.filterMap PoolMessage.dispatch?) +
    unwritten (w.pool.waiters.map Waiter.dispatch) + (w.connections.map Connection.holdings).sum

theorem coe_flatMap_places (cs : List Connection) :
    (↑((cs.flatMap Connection.places).map fun x => x.1.holding x.2) : Multiset Holding) =
      (cs.map Connection.holdings).sum := by
  induction cs with
  | nil => rfl
  | cons c cs ih =>
    rw [List.flatMap_cons, List.map_append, ← Multiset.coe_add, ih, c.coe_places, List.map_cons,
      List.sum_cons]

theorem coe_places (w : World) :
    (↑(w.places.map fun x => x.1.holding x.2) : Multiset Holding) = w.holdings := by
  have hc := coe_flatMap_places w.connections
  simp only [places, holdings, List.map_append, ← Multiset.coe_add, hc]
  simp [unwritten, Place.holding, Function.comp_def]

end World

end PushDelivery
