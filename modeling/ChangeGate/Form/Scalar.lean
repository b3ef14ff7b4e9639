import ChangeGate.Ident
import ChangeGate.Json.Printer
import ChangeGate.Json.Reader
import ChangeGate.Outcome
import ChangeGate.Revision
import ChangeGate.Timestamp

/-!
The JSON forms of identifiers, instants, revisions, outcomes and counts. An identifier is written as
its bare digits, without the word for its kind, and an instant as text in universal time.
-/

namespace ChangeGate

open Json (Reader Source)

def Json.Reader.text : Reader String := Reader.string "a string"

def Ident.toJson {kind : Ident.Kind} (id : Ident kind) : Json := .string id.uuid.text

def Ident.reader (kind : Ident.Kind) : Reader (Ident kind) := fun d => do
  let s ← Reader.string "a formatted UUID string" d
  match Uuid.ofText? s with
  | some uuid => return ⟨uuid⟩
  | none => throw (.shape (.other ("UUID parsing failed: " ++ (Uuid.fault s).message)))

def Timestamp.toJson (t : Timestamp) : Json := .string t.text

def Timestamp.reader : Reader Timestamp := fun d => do
  let s ← Reader.string "an RFC 3339 formatted date and time string" d
  match Timestamp.ofText s with
  | .ok t => return t
  | .error fault => throw (.shape (.other fault.message))

/-- The JSON form of a pair of revisions. -/
def Revisions.toJson (r : Revisions) : Json :=
  .object [("base", .string r.base), ("head", .string r.head)]

/-- A pair of revisions as far as it is read. -/
structure Revisions.Parts where
  base : Option String := none
  head : Option String := none

def Revisions.reader (source : Source) : Reader Revisions :=
  Reader.record "struct RevisionPair"
    [.of "base" Parts.base .text fun a p => { p with base := some a },
     .of "head" Parts.head .text fun a p => { p with head := some a }]
    {}
    (fun p => do
      let base ← Reader.required "base" p.base
      let head ← Reader.required "head" p.head
      return { base, head })
    source

def Outcome.toJson (o : Outcome) : Json := .string o.name

def Outcome.reader (source : Source) : Reader Outcome := Reader.enumeration Outcome.byName source

def JobState.reader (source : Source) : Reader JobState := Reader.enumeration JobState.byName source

/-- The JSON form of the counts of a run. -/
def Summary.toJson (s : Summary) : Json :=
  .object [("succeeded", .nat s.succeeded), ("failed", .nat s.failed), ("skipped", .nat s.skipped),
    ("upstream_failure", .nat s.upstreamFailure), ("cancelled", .nat s.cancelled)]

/-- The counts of a run as far as they are read. -/
structure Summary.Parts where
  succeeded : Option Nat := none
  failed : Option Nat := none
  skipped : Option Nat := none
  upstreamFailure : Option Nat := none
  cancelled : Option Nat := none

def Summary.reader (source : Source) : Reader Summary :=
  Reader.record "struct RunSummary"
    [.of "succeeded" Parts.succeeded .size fun a p => { p with succeeded := some a },
     .of "failed" Parts.failed .size fun a p => { p with failed := some a },
     .of "skipped" Parts.skipped .size fun a p => { p with skipped := some a },
     .of "upstream_failure" Parts.upstreamFailure .size
       fun a p => { p with upstreamFailure := some a },
     .of "cancelled" Parts.cancelled .size fun a p => { p with cancelled := some a }]
    {}
    (fun p => do
      let succeeded ← Reader.required "succeeded" p.succeeded
      let failed ← Reader.required "failed" p.failed
      let skipped ← Reader.required "skipped" p.skipped
      let upstreamFailure ← Reader.required "upstream_failure" p.upstreamFailure
      let cancelled ← Reader.required "cancelled" p.cancelled
      return { succeeded, failed, skipped, upstreamFailure, cancelled })
    source

end ChangeGate
