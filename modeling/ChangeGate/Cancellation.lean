/-!
Cancellation of runs. Signals are connected to handles; once a handle cancels, every signal of its
group is cancelled for good. A group all of whose handles are gone is never cancelled any more.
-/

namespace ChangeGate

/-- What is done with handles and signals; each is named by its index. -/
inductive Cancellation.Use where
  | cloneHandle (i : Nat)
  | cloneSignal (i : Nat)
  | never
  | cancel (i : Nat)
  | dropHandle (i : Nat)
deriving DecidableEq, Repr

structure Cancellation where
  groups : List Bool := [false]
  /-- The group of each handle; `none` for a handle that is gone. -/
  handles : List (Option Nat) := [some 0]
  signals : List Nat := [0]
deriving DecidableEq, Repr

namespace Cancellation

/-- Adds a handle of the group of another. -/
def cloneHandle (c : Cancellation) (i : Nat) : Cancellation :=
  match c.handles[i]? with
  | some handle => { c with handles := c.handles ++ [handle] }
  | none => c

/-- Adds a signal of the group of another. -/
def cloneSignal (c : Cancellation) (i : Nat) : Cancellation :=
  match c.signals[i]? with
  | some signal => { c with signals := c.signals ++ [signal] }
  | none => c

/-- Adds a signal of a new group without handles. -/
def never (c : Cancellation) : Cancellation :=
  { c with groups := c.groups ++ [false], signals := c.signals ++ [c.groups.length] }

def cancel (c : Cancellation) (i : Nat) : Cancellation :=
  match c.handles[i]? with
  | some (some group) => { c with groups := c.groups.set group true }
  | _ => c

def dropHandle (c : Cancellation) (i : Nat) : Cancellation :=
  { c with handles := c.handles.set i none }

def use (c : Cancellation) : Use → Cancellation
  | .cloneHandle i => c.cloneHandle i
  | .cloneSignal i => c.cloneSignal i
  | .never => c.never
  | .cancel i => c.cancel i
  | .dropHandle i => c.dropHandle i

def isCancelled (c : Cancellation) (signal : Nat) : Bool :=
  ((c.signals[signal]?).bind (c.groups[·]?)).getD false

/-- For each signal whether it is cancelled. -/
def states (c : Cancellation) : List Bool :=
  c.signals.map fun group => (c.groups[group]?).getD false

end Cancellation

end ChangeGate
