import ChangeGate.ChangedPaths.Listing
import ChangeGate.Proofs.ChangedPaths.Records
import ChangeGate.Proofs.Text.Blank
import ChangeGate.Proofs.Text.Lines

/-! Texts that list paths. What is written around the paths, between them and at the ends of lines
makes no difference to what is read, and what is read is listed by the paths alone, one a line. The
same paths are read when `git` prints them. -/

namespace ChangeGate.ChangedPaths

open Text

variable {path line text : List Char} {paths : List (List Char)}

/-- A path that a line can say: there is something in it, it has no feed and no blank at either end,
and does not look like a comment. -/
structure IsListed (path : List Char) : Prop where
  ne_nil : path ≠ []
  no_feed : '\n' ∉ path
  first : ∀ c, path.head? = some c → isBlank c = false
  last : ∀ c, path.getLast? = some c → isBlank c = false
  no_hash : path.head? ≠ some '#'

/-- What a line says: a path, with blanks around it, or nothing. -/
inductive Says : List Char → List (List Char) → Prop where
  | path {before path after : List Char} (hBefore : ∀ c ∈ before, isBlank c = true)
      (listed : IsListed path) (hAfter : ∀ c ∈ after, isBlank c = true) :
      Says (before ++ path ++ after) [path]
  | blank {line : List Char} (hBlank : ∀ c ∈ line, isBlank c = true) : Says line []
  | comment {before rest : List Char} (hBefore : ∀ c ∈ before, isBlank c = true) :
      Says (before ++ '#' :: rest) []

/-- A text lists the paths that its lines say. A line ends with a feed, which may have a return
before it, and the last line need not end. -/
inductive Lists : List Char → List (List Char) → Prop where
  | last {line : List Char} {said : List (List Char)} (hFeed : '\n' ∉ line)
      (hSays : Says line said) : Lists line said
  | line {line text : List Char} {said paths : List (List Char)} {ret : List Char}
      (hFeed : '\n' ∉ line) (hSays : Says line said) (hReturn : ret = [] ∨ ret = ['\r'])
      (rest : Lists text paths) : Lists (line ++ ret ++ '\n' :: text) (said ++ paths)

theorem IsListed.trim_eq (listed : IsListed path) : trim path = path :=
  trim_eq_self listed.first listed.last

theorem IsListed.isPath (listed : IsListed path) : isPath path = true := by
  simp [ChangedPaths.isPath, listed.ne_nil, listed.no_hash]

/-- What is read of a line is what it says. -/
theorem Says.read {said : List (List Char)} (hSays : Says line said) :
    [trim line].filter isPath = said := by
  cases hSays with
  | path hBefore listed hAfter =>
      rw [trim_padded hBefore hAfter, listed.trim_eq]
      simp [listed.isPath]
  | blank hBlank =>
      rw [trim_of_blank hBlank]
      rfl
  | comment hBefore =>
      rw [trim_blank_append hBefore, trim_cons (by decide)]
      simp [isPath]

/-- A return at the end of a line is a blank. -/
theorem trim_dropFinal (line : List Char) : trim (dropFinal '\r' line) = trim line := by
  rcases eq_dropFinal_append '\r' line with hSame | hSame
  · rw [← hSame]
  · have hBlank : ∀ c ∈ ['\r'], isBlank c = true := List.forall_mem_singleton.mpr rfl
    have hReturn := trim_append_blank hBlank (dropFinal '\r' line)
    rw [← hSame] at hReturn
    exact hReturn.symm

theorem ofChars_append_cons {rest : List Char} (hFeed : '\n' ∉ line) :
    ofChars (line ++ '\n' :: rest) = [trim line].filter isPath ++ ofChars rest := by
  rw [ofChars, lines, linesWith_append_cons hFeed, List.map_cons, trim_dropFinal,
    ← List.singleton_append, List.filter_append]
  rfl

theorem ofChars_of_notMem (hFeed : '\n' ∉ line) : ofChars line = [trim line].filter isPath := by
  by_cases hNil : line = []
  · subst hNil
    rfl
  · rw [ofChars, lines, linesWith_of_notMem hFeed hNil]
    rfl

/-- The paths that a text lists are read of it. -/
theorem Lists.read (lists : Lists text paths) : ofChars text = paths := by
  induction lists with
  | last hFeed hSays => rw [ofChars_of_notMem hFeed, hSays.read]
  | @line line text said paths ret hFeed hSays hReturn rest ih =>
      have hEnd : '\n' ∉ ret ∧ ret.all isBlank = true := by
        rcases hReturn with rfl | rfl <;> decide
      have hWhole : '\n' ∉ line ++ ret := by simp [hFeed, hEnd.1]
      rw [ofChars_append_cons hWhole, trim_append_blank (List.all_eq_true.mp hEnd.2), hSays.read,
        ih]

theorem isListed_of_mem_ofChars (h : path ∈ ofChars text) : IsListed path := by
  obtain ⟨hTrimmed, hPath⟩ := List.mem_filter.mp h
  obtain ⟨line, hLine, rfl⟩ := List.mem_map.mp hTrimmed
  obtain ⟨hFirst, hLast⟩ := trim_bounds line
  simp only [isPath, Bool.and_eq_true, Bool.not_eq_true', List.isEmpty_eq_false_iff,
    bne_iff_ne] at hPath
  exact ⟨hPath.1, fun hMem => notMem_of_mem_linesWith hLine (mem_of_mem_trim hMem), hFirst, hLast,
    hPath.2⟩

/-- Paths are listed by themselves, one a line. -/
theorem lists_intercalate (hListed : ∀ path ∈ paths, IsListed path) :
    Lists (['\n'].intercalate paths) paths := by
  have hSays : ∀ {path : List Char}, IsListed path → Says path [path] := fun listed => by
    simpa using Says.path (List.forall_mem_nil _) listed (List.forall_mem_nil _)
  induction paths with
  | nil => exact .last List.not_mem_nil (.blank (List.forall_mem_nil _))
  | cons path rest ih =>
      obtain ⟨listed, hRest⟩ := List.forall_mem_cons.mp hListed
      cases rest with
      | nil => simpa using Lists.last listed.no_feed (hSays listed)
      | cons next rest =>
          rw [List.intercalate_cons_cons]
          simpa using Lists.line listed.no_feed (hSays listed) (.inl rfl) (ih hRest)

/-- What was read is read again of the paths alone. -/
theorem ofChars_intercalate (text : List Char) :
    ofChars (['\n'].intercalate (ofChars text)) = ofChars text :=
  (lists_intercalate fun _ => isListed_of_mem_ofChars).read

theorem ofBytes_encode (text : List Char) :
    ofBytes (Utf8.encode text) = .ok ((ofChars text).map String.ofList) := by
  rw [ofBytes, Utf8.strict?_encode]

/-- What `git` prints of paths without a null character is read as these paths. -/
theorem listedPaths_encode (hListed : ∀ path ∈ paths, path ≠ [] ∧ '\x00' ∉ path) :
    Git.listedPaths (Git.printed (paths.map Utf8.encode)) = paths.map String.ofList := by
  have hRecords : ∀ record ∈ paths.map Utf8.encode, Git.IsRecord record := by
    intro record hMem
    obtain ⟨path, hPath, rfl⟩ := List.mem_map.mp hMem
    obtain ⟨hSome, hNull⟩ := hListed path hPath
    exact ⟨mt Utf8.encode_eq_nil_iff.mp hSome,
      fun hByte => hNull (Utf8.mem_of_mem_encode (by decide) hByte)⟩
  rw [Git.listedPaths_printed hRecords, List.map_map]
  exact List.map_congr_left fun path _ => congrArg String.ofList (Utf8.lenient_encode path)

/-- The paths that a text lists are read of it, and of the answer of `git`, if it lists the same
paths, none of which has a null character; so every detector decides the same on both. And what is
read of any text is read again of its paths, one a line. -/
theorem listing_agrees_with_git :
    (∀ text paths, Lists text paths →
      ofBytes (Utf8.encode text) = .ok (paths.map String.ofList) ∧
      ((∀ path ∈ paths, '\x00' ∉ path) →
        ∀ (git : Git) (repo base head : String) (r : Revisions) (reply : Git.Reply),
          Git.Compares git repo r base head reply → reply.status = 0 →
          (reply.stdout = Git.printed (paths.map Utf8.encode) ∨
            reply.stdout = [0].intercalate (paths.map Utf8.encode)) →
          (git.changedPaths repo r).result = .ok (paths.map String.ofList) ∧
          ∀ d : Detector, ∃ decision,
            d.evaluate (git.changedPaths repo r).result = .ok decision ∧
            d.evaluate (ofBytes (Utf8.encode text)) = .ok decision)) ∧
    ∀ text, ∃ paths, ofBytes (Utf8.encode text) = .ok paths ∧
      ofBytes (Utf8.encode (['\n'].intercalate (paths.map String.toList))) = .ok paths := by
  refine ⟨fun text paths lists => ?_, fun text => ⟨_, ofBytes_encode text, ?_⟩⟩
  · have hRead : ofBytes (Utf8.encode text) = .ok (paths.map String.ofList) := by
      rw [ofBytes_encode, lists.read]
    refine ⟨hRead, fun hNull git repo base head r reply compares hStatus hPrinted => ?_⟩
    have hListed : ∀ path ∈ paths, path ≠ [] ∧ '\x00' ∉ path := by
      intro path hMem
      exact ⟨(isListed_of_mem_ofChars (lists.read ▸ hMem)).ne_nil, hNull path hMem⟩
    have hPaths : (git.changedPaths repo r).result = .ok (paths.map String.ofList) := by
      rw [Git.changedPaths_of_compares compares, if_pos hStatus]
      rcases hPrinted with hPrinted | hPrinted
      · rw [hPrinted, listedPaths_encode hListed]
      · rw [hPrinted, Git.listedPaths_intercalate, listedPaths_encode hListed]
    refine ⟨hPaths, fun d => ⟨d.decide (paths.map String.ofList), ?_, ?_⟩⟩
    · rw [hPaths]
      rfl
    · rw [hRead]
      rfl
  · have hBack : ((ofChars text).map String.ofList).map String.toList = ofChars text := by
      simp [Function.comp_def]
    rw [hBack, ofBytes_encode, ofChars_intercalate]

/-- Two paths among comments and blanks, with line ends of both kinds and none at the end. -/
def sampleListing : List Char := "# all\r\n  src/a.rs \n\n\t# more\r\ndocs/b c.md".toList

theorem sampleListing_lists : Lists sampleListing ["src/a.rs".toList, "docs/b c.md".toList] := by
  have hFirst : IsListed "src/a.rs".toList :=
    isListed_of_mem_ofChars (show _ ∈ ofChars "src/a.rs".toList by decide)
  have hSecond : IsListed "docs/b c.md".toList :=
    isListed_of_mem_ofChars (show _ ∈ ofChars "docs/b c.md".toList by decide)
  have hNone : ∀ c ∈ ([] : List Char), isBlank c = true := List.forall_mem_nil _
  have hTab : ∀ c ∈ "\t".toList, isBlank c = true := List.all_eq_true.mp (by decide)
  have hSpace : ∀ c ∈ " ".toList, isBlank c = true := List.all_eq_true.mp (by decide)
  have hSpaces : ∀ c ∈ "  ".toList, isBlank c = true := List.all_eq_true.mp (by decide)
  have hEnd : Lists ([] ++ "docs/b c.md".toList ++ []) ["docs/b c.md".toList] :=
    .last (by decide) (.path hNone hSecond hNone)
  have hIndented : Lists ("\t".toList ++ '#' :: " more".toList ++ ['\r'] ++ '\n' :: _) ([] ++ _) :=
    .line (by decide) (.comment hTab) (.inr rfl) hEnd
  have hBlank : Lists ([] ++ [] ++ '\n' :: _) ([] ++ _) :=
    .line (by decide) (.blank hNone) (.inl rfl) hIndented
  have hPadded :
      Lists ("  ".toList ++ "src/a.rs".toList ++ " ".toList ++ [] ++ '\n' :: _) (_ ++ _) :=
    .line (by decide) (.path hSpaces hFirst hSpace) (.inl rfl) hBlank
  have hComment : Says ([] ++ '#' :: " all".toList) [] := .comment hNone
  exact .line (by decide) hComment (.inr rfl) hPadded

theorem sample_listing_read :
    Lists sampleListing ["src/a.rs".toList, "docs/b c.md".toList] ∧
    ofBytes (Utf8.encode sampleListing) = .ok ["src/a.rs", "docs/b c.md"] ∧
    ((Git.answering (Utf8.encode "src/a.rs\x00docs/b c.md".toList)).changedPaths "."
      ⟨"main", "topic"⟩).result = .ok ["src/a.rs", "docs/b c.md"] := by
  obtain ⟨hRead, hAgrees⟩ := listing_agrees_with_git.1 _ _ sampleListing_lists
  have compares := Git.compares_answering (Utf8.encode "src/a.rs\x00docs/b c.md".toList)
  obtain ⟨hPaths, -⟩ := hAgrees (by decide) _ _ _ _ _ _ compares rfl (.inr (by decide))
  exact ⟨sampleListing_lists, hRead, hPaths⟩

end ChangeGate.ChangedPaths
