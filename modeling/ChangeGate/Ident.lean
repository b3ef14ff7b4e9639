import ChangeGate.Uuid

/-!
Identifiers of runs and jobs. Both are identifiers of 128 bits; as text they carry the name of their
kind in front, and a text is read with or without it.
-/

namespace ChangeGate

namespace Ident

inductive Kind where
  | run
  | job
deriving DecidableEq, Repr

/-- The word in front of an identifier of a kind. -/
def Kind.label : Kind → List Char
  | .run => "run_".toList
  | .job => "job_".toList

end Ident

structure Ident (kind : Ident.Kind) where
  uuid : Uuid
deriving DecidableEq, Repr

abbrev RunId := Ident .run

abbrev JobId := Ident .job

namespace Ident

variable {kind : Kind}

/-- The text of an identifier: its kind, then the grouped form. -/
def text (id : Ident kind) : String := String.ofList (kind.label ++ id.uuid.chars)

/-- What follows a label at the start of a text, or the text itself if it starts otherwise. -/
def bare (kind : Kind) (cs : List Char) : List Char :=
  if kind.label.isPrefixOf cs then cs.drop kind.label.length else cs

/-- The identifier of a text, with or without the label of the kind. -/
def ofText? (kind : Kind) (text : String) : Option (Ident kind) :=
  (Uuid.ofChars? (bare kind text.toList)).map Ident.mk

end Ident

end ChangeGate
