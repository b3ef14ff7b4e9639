import ChangeGate.Bits
import ChangeGate.Event
import ChangeGate.Task.Execution

/-!
How lines get from a running task to the bus, and when the task has its result. Each stream has a
reader, which takes bytes as they come and cuts them into lines; lines go into a queue of limited
length. A forwarder takes them out one at a time and hands each to the bus, if there is one and
output is to be published. Readers and forwarder go on in any order while the command runs. When the
command has ended, its result waits for both readers and then for the forwarder; a command that is
late has its result at once.
-/

namespace ChangeGate.Forwarding

/-- What a task is run with. -/
structure Runner where
  /-- The number of seconds that goes before what the task says. -/
  timeout : Option Nat := none
  publishOutput : Bool := true
  hasBus : Bool := false
deriving DecidableEq, Repr

/-- Whether lines are handed to a bus. -/
def Runner.publishes (r : Runner) : Bool := r.publishOutput && r.hasBus

/-- The number of seconds after which a task is given up. -/
def Runner.seconds (r : Runner) (task : Task) : Nat := r.timeout.getD task.seconds

/-- The greatest number of lines in the queue. -/
def queueLimit : Nat := 256

/-- The last number that a reader can give to a line. -/
def lastNumber : Nat := Bits.values 32 - 1

structure StreamReader where
  unread : List UInt8
  /-- The bytes that belong to a line whose end has not been seen. -/
  pending : List UInt8 := []
  held : Option String := none
  /-- The number of the last line. -/
  number : Nat := 0
  ended : Bool := false
deriving DecidableEq, Repr

namespace StreamReader

/-- Holds a line for the queue, or ends the reader if the line is not made of characters or there is
no number left for it. -/
def hold (r : StreamReader) (line : List UInt8) : StreamReader :=
  match Text.Utf8.strict? line with
  | some text =>
    if r.number < lastNumber then
      { r with held := some (String.ofList text), number := r.number + 1 }
    else { r with ended := true }
  | none => { r with ended := true }

/-- Takes at most so many bytes, up to the end of a line. -/
def take (r : StreamReader) : Nat → StreamReader
  | 0 => r
  | n + 1 =>
    match r.unread with
    | [] => r
    | byte :: rest =>
      if byte = 0x0A then
        hold { r with unread := rest, pending := [] } (Text.dropFinal 0x0D r.pending)
      else take { r with unread := rest, pending := r.pending ++ [byte] } n

/-- What the reader does when the stream has ended: a line without an end is a line too. -/
def finish (r : StreamReader) : StreamReader :=
  if r.pending.isEmpty then { r with ended := true }
  else hold { r with pending := [] } r.pending

end StreamReader

/-- What the result of a task waits for. -/
inductive Stage where
  | command
  | reader (stream : Stream) (ending : Shell.Ending)
  | forwarder (ending : Shell.Ending)
  /-- The result is there: that of a command that has ended so. -/
  | returned (ending : Shell.Ending)
deriving DecidableEq, Repr

/-- How the command has ended, if it has. -/
def Stage.ending? : Stage → Option Shell.Ending
  | .command => none
  | .reader _ ending => some ending
  | .forwarder ending => some ending
  | .returned ending => some ending

structure Traffic where
  output : StreamReader
  messages : StreamReader
  queue : List OutputLine := []
  /-- The line that the forwarder has taken out of the queue. -/
  inHand : Option OutputLine := none
  /-- The events that were handed to the bus, each with the error that it answered, if any. -/
  handed : List (Event × Option Error) := []
  /-- Whether the forwarder has ended. -/
  closed : Bool := false
  stage : Stage := .command
deriving DecidableEq, Repr

namespace Traffic

/-- The traffic when the command starts, with all that it is going to write still unread. -/
def start (written : Stream → List UInt8) : Traffic where
  output := { unread := written .output }
  messages := { unread := written .messages }

def reader (t : Traffic) : Stream → StreamReader
  | .output => t.output
  | .messages => t.messages

/-- Puts a reader in the place of that of a stream. -/
def setReader (t : Traffic) (r : StreamReader) : Stream → Traffic
  | .output => { t with output := r }
  | .messages => { t with messages := r }

/-- The events that were handed to the bus. -/
def events (t : Traffic) : List Event := t.handed.map Prod.fst

end Traffic

/-- The event of a line of a task. -/
def lineEvent (c : TaskContext) (line : OutputLine) : Event :=
  ⟨c.run, .jobOutput c.job line.text (line.stream = .messages)⟩

/-- The result of a task, once it is there. -/
def Traffic.result? (runner : Runner) (c : TaskContext) (t : Traffic) :
    Option (Except Error TaskResult) :=
  match t.stage with
  | .returned ending => some (taskResult (runner.seconds c.task) ending)
  | _ => none

inductive Action where
  | take (stream : Stream) (count : Nat)
  | finish (stream : Stream)
  | send (stream : Stream)
  | receive
  /-- The forwarder hands over its line. An error of the bus is noted, and nothing else. -/
  | publish (answer : Option Error)
  | close
  | conclude (ending : Shell.Ending)
  | join
deriving DecidableEq, Repr

section

variable (runner : Runner) (c : TaskContext)

/-- The traffic after an action, if the action is possible. -/
def Traffic.act? (t : Traffic) : Action → Option Traffic
  | .take stream count =>
    let r := t.reader stream
    if r.ended || r.held.isSome || r.unread.isEmpty || count == 0 then none
    else some (t.setReader (r.take count) stream)
  | .finish stream =>
    let r := t.reader stream
    if r.ended || r.held.isSome || !r.unread.isEmpty then none
    else some (t.setReader r.finish stream)
  | .send stream =>
    let r := t.reader stream
    match r.held with
    | some text =>
      if t.queue.length < queueLimit then
        some { t.setReader { r with held := none } stream with
          queue := t.queue ++ [⟨stream, text⟩] }
      else none
    | none => none
  | .receive =>
    match t.inHand, t.queue with
    | none, line :: rest => some { t with queue := rest, inHand := some line }
    | _, _ => none
  | .publish answer =>
    match t.inHand with
    | some line =>
      let handed := if runner.publishes then [(lineEvent c line, answer)] else []
      some { t with inHand := none, handed := t.handed ++ handed }
    | none => none
  | .close =>
    -- the queue ends when no reader is left to send anything and nothing is in it
    if t.output.ended && t.messages.ended && t.queue.isEmpty && t.inHand.isNone && !t.closed then
      some { t with closed := true }
    else none
  | .conclude ending =>
    match t.stage with
    | .command =>
      some { t with stage := if ending = .late then .returned ending else .reader .output ending }
    | _ => none
  | .join =>
    match t.stage with
    | .reader .output ending =>
      if t.output.ended then some { t with stage := .reader .messages ending } else none
    | .reader .messages ending =>
      if t.messages.ended then some { t with stage := .forwarder ending } else none
    | .forwarder ending =>
      if t.closed then some { t with stage := .returned ending } else none
    | _ => none

/-- The traffic after actions, one after another, if each of them is possible. -/
def Traffic.run? (t : Traffic) : List Action → Option Traffic
  | [] => some t
  | action :: rest => (t.act? runner c action).bind fun next => next.run? rest

end

end ChangeGate.Forwarding
