import ChangeGate.Text.Digits

/-!
Universally unique identifiers of 128 bits. They are written as 32 lower-case hexadecimal digits in
five groups joined by hyphens. Four forms are read: the grouped one, the grouped one in braces or
after `urn:uuid:`, and the 32 digits alone, with digits in either case.
-/

namespace ChangeGate

structure Uuid where
  bits : BitVec 128
deriving DecidableEq, Repr

namespace Uuid

/-- The identifier of a number, modulo 2^128. -/
def ofNat (n : Nat) : Uuid := ⟨BitVec.ofNat 128 n⟩

def groupLengths : List Nat := [8, 4, 4, 4, 12]

def digits (u : Uuid) : List Char := Text.hexDigits u.bits.toNat 32

/-- Cuts a text into groups of the given lengths, the last of them taking what is left. -/
def groups : List Nat → List Char → List (List Char)
  | [], _ => []
  | [_], cs => [cs]
  | n :: ns, cs => cs.take n :: groups ns (cs.drop n)

def chars (u : Uuid) : List Char :=
  List.intercalate ['-'] (groups groupLengths u.digits)

def text (u : Uuid) : String := String.ofList u.chars

def ofDigits? (cs : List Char) : Option Uuid :=
  if cs.length = 32 then (Text.ofHexDigits? 0 cs).map ofNat else none

/-- The digits of a grouped form, if the hyphens stand where the groups end. -/
def ungroup? : List Nat → List Char → Option (List Char)
  | [], _ => none
  | [n], cs => if cs.length = n then some cs else none
  | n :: ns, cs =>
    match cs.drop n with
    | '-' :: rest => (ungroup? ns rest).map (cs.take n ++ ·)
    | _ => none

def ofGrouped? (cs : List Char) : Option Uuid :=
  (ungroup? groupLengths cs).bind ofDigits?

/-- The text after the name space `urn:uuid:`, in either case. -/
def afterUrn? (cs : List Char) : Option (List Char) :=
  if (cs.take 9).map Char.toLower = "urn:uuid:".toList then some (cs.drop 9) else none

def insideBraces? : List Char → Option (List Char)
  | '\x7b' :: rest => if rest.getLast? = some '\x7d' then some rest.dropLast else none
  | _ => none

/-- What the length of a text says about its form. -/
inductive Form where
  | bare
  /-- The grouped form, which is the whole text or what braces or the name space leave of it. -/
  | grouped (body : List Char)
  | unknown
deriving DecidableEq, Repr

def bytes (cs : List Char) : Nat := cs.foldl (fun n c => n + c.utf8Size) 0

/-- The form that a text must have, as its length in bytes allows no other. -/
def formOf (cs : List Char) : Form :=
  match bytes cs with
  | 32 => .bare
  | 36 => .grouped cs
  | 38 => ((insideBraces? cs).map .grouped).getD .unknown
  | 45 => ((afterUrn? cs).map .grouped).getD .unknown
  | _ => .unknown

/-- The identifier of a text in one of the four forms. -/
def ofChars? (cs : List Char) : Option Uuid :=
  match formOf cs with
  | .bare => ofDigits? cs
  | .grouped body => ofGrouped? body
  | .unknown => none

/-- The identifier of a text in one of the four forms. -/
def ofText? (text : String) : Option Uuid := ofChars? text.toList

inductive Fault where
  /-- A character that is neither a digit nor a hyphen, and the byte at which it stands. -/
  | badCharacter (c : Char) (place : Nat)
  | badLength (length : Nat)
  | badGroupCount (count : Nat)
  | badGroupLength (group expected length : Nat)
deriving DecidableEq, Repr

def Fault.message : Fault → String
  | .badCharacter c place =>
    "invalid character: found `" ++ String.ofList [c] ++ "` at " ++ toString place
  | .badLength n => "invalid length: found " ++ toString n
  | .badGroupCount n => "invalid group count: expected 5, found " ++ toString n
  | .badGroupLength group expected length =>
    "invalid group length in group " ++ toString group ++ ": expected " ++ toString expected ++
      ", found " ++ toString length

/-- The first character that is neither a digit nor a hyphen, with the byte at which it stands. -/
def firstBad? (place : Nat) : List Char → Option (Char × Nat)
  | [] => none
  | c :: rest =>
    if c = '-' ∨ (Text.hexDigit? c).isSome then firstBad? (place + c.utf8Size) rest
    else some (c, place)

def hyphens (place : Nat) : List Char → List Nat
  | [] => []
  | c :: rest => if c = '-' then place :: hyphens (place + 1) rest else hyphens (place + 1) rest

/-- The first group that does not end where it should, given the places of the hyphens. -/
def firstBadGroup? (group start : Nat) : List Nat → List Nat → Option Fault
  | n :: ns, h :: hs =>
    if h = start + n then firstBadGroup? (group + 1) (start + n + 1) ns hs
    else some (.badGroupLength group n (h - start))
  | _, _ => none

/-- Why groups of digits are not the five that are wanted, given the places of the hyphens. -/
def groupFault (body : List Char) (hyphens : List Nat) : Fault :=
  if hyphens.length ≠ 4 then .badGroupCount (hyphens.length + 1)
  else (firstBadGroup? 0 0 groupLengths hyphens).getD (.badGroupLength 4 12 (body.length - 24))

/-- The greatest length of a text in one of the four forms. -/
def maxLength : Nat := 45

/-- Why a text that is no identifier is none. Places are counted in the grouped form, if the text
must have that; a text that is longer than any form is not looked at. -/
def fault (text : String) : Fault :=
  let cs := text.toList
  let (body, isGrouped) : List Char × Bool :=
    match formOf cs with
    | .grouped body => (body, true)
    | _ => (cs, false)
  if maxLength < bytes cs then .badLength (bytes cs)
  else
    match firstBad? 0 body with
    | some (c, place) => .badCharacter c place
    | none =>
      let hs := hyphens 0 body
      if hs.isEmpty && !isGrouped then .badLength (bytes cs) else groupFault body hs

end Uuid

end ChangeGate
