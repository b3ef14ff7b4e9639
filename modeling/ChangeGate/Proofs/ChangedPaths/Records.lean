import ChangeGate.Proofs.ChangedPaths.Git
import ChangeGate.Proofs.Text.Pieces
import ChangeGate.Proofs.Text.Utf8

/-! What is read of the records that `git` prints, each of which ends in a null byte. A null byte is
a null character wherever it stands, and there is no other. So each record is read by itself,
whatever its bytes are, and none is lost. -/

namespace ChangeGate.Git

open Text

variable {records : List (List UInt8)}

/-- Bytes that a null byte may end: there are some, and none of them is null. -/
def IsRecord (record : List UInt8) : Prop := record ≠ [] ∧ 0 ∉ record

/-- The records, each with a null byte after it. -/
def printed (records : List (List UInt8)) : List UInt8 := records.flatMap (· ++ [0])

/-- The path that a record is read as. -/
def pathOf (record : List UInt8) : String := String.ofList (Utf8.lenient record)

theorem lenient_append_null (record rest : List UInt8) :
    Utf8.lenient (record ++ 0 :: rest) = Utf8.lenient record ++ '\x00' :: Utf8.lenient rest :=
  Utf8.lenient_append (by decide) record rest

theorem pieces_printed (hRecords : ∀ record ∈ records, 0 ∉ record) :
    pieces '\x00' (Utf8.lenient (printed records)) = records.map Utf8.lenient ++ [[]] := by
  induction records with
  | nil => simp [printed, Utf8.lenient, Utf8.decode]
  | cons record rest ih =>
      obtain ⟨hRecord, hRest⟩ := List.forall_mem_cons.mp hRecords
      have hNull : '\x00' ∉ Utf8.lenient record :=
        fun hMem => hRecord (Utf8.mem_of_mem_lenient (by decide) hMem)
      have hPrinted : printed (record :: rest) = record ++ 0 :: printed rest := by
        simp [printed]
      rw [hPrinted, lenient_append_null, pieces_append_cons, pieces_of_notMem hNull, ih hRest]
      rfl

/-- What is read of the records is what each of them is read as. -/
theorem listedPaths_printed (hRecords : ∀ record ∈ records, IsRecord record) :
    listedPaths (printed records) = records.map pathOf := by
  have hSome : ∀ text ∈ records.map Utf8.lenient, (!text.isEmpty) = true := by
    intro text hMem
    obtain ⟨record, hRecord, rfl⟩ := List.mem_map.mp hMem
    simp [Utf8.lenient_eq_nil_iff, (hRecords record hRecord).1]
  rw [listedPaths, pieces_printed fun record hMem => (hRecords record hMem).2,
    List.filter_append, List.filter_eq_self.mpr hSome]
  simp [pathOf]

theorem listedPaths_append_null (bytes : List UInt8) :
    listedPaths (bytes ++ [0]) = listedPaths bytes := by
  rw [listedPaths, lenient_append_null, pieces_append_cons, List.filter_append]
  simp [listedPaths, Utf8.lenient, Utf8.decode]

/-- Without a null byte after the last record the same is read. -/
theorem listedPaths_intercalate (records : List (List UInt8)) :
    listedPaths ([0].intercalate records) = listedPaths (printed records) := by
  by_cases hNil : records = []
  · subst hNil
    rfl
  · rw [printed, List.flatMap_def, flatten_map_append_sep hNil, listedPaths_append_null]

/-- A pattern without a star matches whatever is read of bytes that start with its own. -/
theorem matches_pathOf {text : String} {record : List UInt8} (hPlain : '*' ∉ text.toList)
    (hStart : Utf8.encode text.toList <+: record) :
    (Pattern.ofText text).Matches (pathOf record) = true := by
  obtain ⟨rest, rfl⟩ := hStart
  have hLeading : Pattern.ofText text = .leading text := by
    rw [Pattern.ofText, if_neg (by simpa using hPlain)]
  rw [hLeading, Pattern.Matches, pathOf, Utf8.lenient_encode_append, String.toList_ofList,
    List.isPrefixOf_iff_prefix]
  exact List.prefix_append _ _

theorem changesDetected_of_matches {d : Detector} {pattern : Pattern} {paths : List String}
    {path : String} (hPattern : pattern ∈ d.patterns) (hPath : path ∈ paths)
    (hMatches : pattern.Matches path = true) : (d.decide paths).changesDetected = true := by
  rw [← Bool.not_eq_false, Detector.decide, Decision.changesDetected_ofPaths_eq_false_iff]
  rintro ⟨hMisses, -⟩
  rw [hMisses path hPath pattern hPattern] at hMatches
  cases hMatches

/-- Where `git` lists the difference of two commits, each path followed by a null byte, the changed
paths are exactly what each of them is read as, in order. So a path whose bytes start with those of
a pattern without a star is a relevant change, whatever other bytes it has. -/
theorem every_path_listed {git : Git} {repo base head : String} {r : Revisions} {reply : Reply}
    (compares : Compares git repo r base head reply) (hStatus : reply.status = 0)
    (hRecords : ∀ record ∈ records, IsRecord record) (hPrinted : reply.stdout = printed records) :
    (git.changedPaths repo r).result = .ok (records.map pathOf) ∧
    ∀ (d : Detector) (text : String), '*' ∉ text.toList → Pattern.ofText text ∈ d.patterns →
      ∀ record ∈ records, Utf8.encode text.toList <+: record →
        ∃ decision, d.evaluate (git.changedPaths repo r).result = .ok decision ∧
          decision.changesDetected = true := by
  have hPaths : (git.changedPaths repo r).result = .ok (records.map pathOf) := by
    rw [changedPaths_of_compares compares, if_pos hStatus, hPrinted, listedPaths_printed hRecords]
  refine ⟨hPaths, fun d text hPlain hPattern record hMem hStart => ?_⟩
  rw [hPaths]
  exact ⟨_, rfl, changesDetected_of_matches hPattern (List.mem_map_of_mem hMem)
    (matches_pathOf hPlain hStart)⟩

/-- A program that knows every revision, and prints the same as the difference of any two. -/
def answering (listing : List UInt8) : Git := fun _ arguments =>
  .ok { stdout := if "diff" ∈ arguments then listing else Utf8.encode "c0ffee\n".toList }

theorem compares_answering (listing : List UInt8) :
    Compares (answering listing) "." ⟨"main", "topic"⟩ "c0ffee" "c0ffee"
      { stdout := listing } := by
  have hHash : trimmed (Utf8.encode "c0ffee\n".toList) = "c0ffee" := by decide +kernel
  have trims := trimmed_eq_iff.mp hHash
  exact ⟨⟨by decide, _, rfl, rfl, trims⟩, ⟨by decide, _, rfl, rfl, trims⟩, rfl⟩

/-- A record that ends within a character, and one that starts with a pattern and goes on with bytes
that are no characters. -/
def brokenRecords : List (List UInt8) := [[0x61, 0xE2, 0x82], [0x73, 0x72, 0x63, 0x2F, 0xFF, 0xC3]]

theorem sample_broken_records :
    Compares (answering (printed brokenRecords)) "." ⟨"main", "topic"⟩ "c0ffee" "c0ffee"
        { stdout := printed brokenRecords } ∧
      (∀ record ∈ brokenRecords, IsRecord record) ∧
      ('*' ∉ "src/".toList ∧ Utf8.encode "src/".toList <+: [0x73, 0x72, 0x63, 0x2F, 0xFF, 0xC3]) ∧
      ((answering (printed brokenRecords)).changedPaths "." ⟨"main", "topic"⟩).result =
        .ok ["a\uFFFD", "src/\uFFFD\uFFFD"] ∧
      ∃ decision, (Detector.ofWorkflow ⟨["src/"], "flag"⟩).evaluate
          ((answering (printed brokenRecords)).changedPaths "." ⟨"main", "topic"⟩).result =
            .ok decision ∧
        decision.changesDetected = true := by
  have compares := compares_answering (printed brokenRecords)
  have hRecords : ∀ record ∈ brokenRecords, IsRecord record := by
    unfold IsRecord
    decide
  have hStart : Utf8.encode "src/".toList <+: [0x73, 0x72, 0x63, 0x2F, 0xFF, 0xC3] := by decide
  obtain ⟨hPaths, hRelevant⟩ := every_path_listed compares rfl hRecords rfl
  refine ⟨compares, hRecords, ⟨by decide, hStart⟩, ?_, ?_⟩
  · have hRead : brokenRecords.map pathOf = ["a\uFFFD", "src/\uFFFD\uFFFD"] := by decide +kernel
    rw [hPaths, hRead]
  · exact hRelevant _ "src/" (by decide) List.mem_cons_self _ (by decide) hStart

end ChangeGate.Git
