import ChangeGate.ChangedPaths.Git
import ChangeGate.Proofs.Decision
import ChangeGate.Proofs.Text.Blank
import ChangeGate.Proofs.Text.Pieces

/-! What a detector decides on the paths that `git` lists. There are no relevant changes only if
`git` has resolved both revisions and listed paths of which none matches; changes are assumed where
a revision does not resolve; and everything else that can go wrong is an error. Each call is made
only after those before it have gone well. -/

namespace ChangeGate.Git

/-- What comes of an attempt to call `git` after other calls: nothing if it cannot be started. -/
def attempt (git : Git) (before : List (List String)) (arguments : List String) : Option Reply :=
  if arguments.any (·.toList.contains '\x00') then none else (git before arguments).toOption

/-- The arguments that ask for the commit of a revision. -/
def commitOf (repo revision : String) : List String :=
  ["-C", repo, "rev-parse", "--verify", "--quiet", revision ++ "^\x7bcommit\x7d"]

/-- The arguments that ask for the paths that differ between two commits. -/
def pathsBetween (repo base head : String) : List String :=
  ["-C", repo, "diff", "--name-only", "-z", "--no-renames", base, head]

/-- A revision that is there is answered with a commit, when it is asked for after some calls: the
commit is what is printed, without the blanks around it. -/
def Resolves (git : Git) (repo : String) (before : List (List String)) (revision commit : String) :
    Prop :=
  ¬ Revisions.Null revision ∧ ∃ reply,
    git.attempt before (commitOf repo revision) = some reply ∧ reply.status = 0 ∧
      Text.Trims (Text.Utf8.lenient reply.stdout) commit.toList

/-- A revision that is null, or to which `git` has no commit, when it is asked for after some
calls. -/
def Unknown (git : Git) (repo : String) (before : List (List String)) (revision : String) : Prop :=
  Revisions.Null revision ∨ ∃ reply,
    git.attempt before (commitOf repo revision) = some reply ∧ reply.status ≠ 0

section

variable (git : Git) (repo : String) (r : Revisions)

/-- The revision whose turn it is after some calls. The newer one has its turn only once the older
one is resolved. -/
inductive Reached : List (List String) → String → Prop where
  | base : Reached [] r.base
  | head {commit : String} (resolves : git.Resolves repo [] r.base commit) :
      Reached [commitOf repo r.base] r.head

/-- The call that is needed after other calls. -/
inductive Needed : List (List String) → List String → Prop where
  | commit {before : List (List String)} {revision : String}
      (reached : Reached git repo r before revision) (hThere : ¬ Revisions.Null revision) :
      Needed before (commitOf repo revision)
  | paths {base head : String} (hBase : git.Resolves repo [] r.base base)
      (hHead : git.Resolves repo [commitOf repo r.base] r.head head) :
      Needed [commitOf repo r.base, commitOf repo r.head] (pathsBetween repo base head)

/-- Calls each of which was needed where it was made, and could be started. -/
inductive Made : List (List String) → Prop where
  | none : Made []
  | call {before : List (List String)} {arguments : List String} {reply : Reply}
      (prior : Made before) (needed : Needed git repo r before arguments)
      (started : git.attempt before arguments = some reply) : Made (before ++ [arguments])

/-- Both revisions resolve, and this is what `git` answers when it is asked for the paths between
their commits. -/
structure Compares (base head : String) (reply : Reply) : Prop where
  hBase : git.Resolves repo [] r.base base
  hHead : git.Resolves repo [commitOf repo r.base] r.head head
  started : git.attempt [commitOf repo r.base, commitOf repo r.head]
    (pathsBetween repo base head) = some reply

end

variable {git : Git} {repo : String} {r : Revisions}

theorem trimmed_eq_iff {bytes : List UInt8} {text : String} :
    trimmed bytes = text ↔ Text.Trims (Text.Utf8.lenient bytes) text.toList := by
  rw [← Text.trim_eq_iff, trimmed, ← String.toList_inj, String.toList_ofList]

theorem Resolves.unique {before : List (List String)} {revision commit commit' : String}
    (resolves : git.Resolves repo before revision commit)
    (resolves' : git.Resolves repo before revision commit') : commit = commit' := by
  obtain ⟨-, reply, hReply, -, trims⟩ := resolves
  obtain ⟨-, reply', hReply', -, trims'⟩ := resolves'
  cases hReply.symm.trans hReply'
  exact (trimmed_eq_iff.mpr trims).symm.trans (trimmed_eq_iff.mpr trims')

/-- Only one revision has its turn after some calls. -/
theorem Reached.unique {before : List (List String)} {revision revision' : String}
    (reached : Reached git repo r before revision)
    (reached' : Reached git repo r before revision') : revision = revision' := by
  cases reached <;> cases reached' <;> rfl

/-- What is needed where a revision has its turn is to ask for that revision. -/
theorem Reached.needed {before : List (List String)} {revision : String} {arguments : List String}
    (reached : Reached git repo r before revision) (needed : Needed git repo r before arguments) :
    ¬ Revisions.Null revision ∧ arguments = commitOf repo revision := by
  cases needed with
  | commit reached' hThere =>
      obtain rfl := reached.unique reached'
      exact ⟨hThere, rfl⟩
  | paths hBase hHead => cases reached

/-- Only one call is needed after some calls. -/
theorem Needed.unique {before : List (List String)} {arguments arguments' : List String}
    (needed : Needed git repo r before arguments)
    (needed' : Needed git repo r before arguments') : arguments = arguments' := by
  cases needed with
  | commit reached hThere => exact (reached.needed needed').2.symm
  | paths hBase hHead =>
      cases needed' with
      | commit reached hThere => cases reached
      | paths hBase' hHead' => rw [hBase.unique hBase', hHead.unique hHead']

theorem Reached.made {before : List (List String)} {revision : String}
    (reached : Reached git repo r before revision) : Made git repo r before := by
  cases reached with
  | base => exact .none
  | head resolves =>
      obtain ⟨hThere, reply, hReply, -⟩ := resolves
      exact .call .none (.commit .base hThere) hReply

theorem Needed.made {before : List (List String)} {arguments : List String}
    (needed : Needed git repo r before arguments) : Made git repo r before := by
  cases needed with
  | commit reached hThere => exact reached.made
  | paths hBase hHead =>
      obtain ⟨hThere, reply, hReply, -⟩ := hHead
      exact .call (Reached.head hBase).made (.commit (.head hBase) hThere) hReply

theorem call_of_attempt {before : List (List String)} {arguments : List String} {reply : Reply}
    (h : git.attempt before ("-C" :: repo :: arguments) = some reply) :
    git.call repo before.reverse arguments =
      ⟨("-C" :: repo :: arguments) :: before.reverse, .ok reply⟩ := by
  simp only [attempt] at h
  simp only [call]
  split at h
  · cases h
  · next hClean =>
      rw [if_neg hClean, List.reverse_reverse]
      cases hAnswer : git before ("-C" :: repo :: arguments) with
      | error fault => rw [hAnswer] at h; cases h
      | ok answer => rw [hAnswer] at h; cases h; rfl

section

variable {before : List (List String)} {revision : String}

theorem resolve_of_resolves {commit : String}
    (resolves : git.Resolves repo before revision commit) :
    git.resolve repo before.reverse revision =
      ⟨commitOf repo revision :: before.reverse, .ok commit⟩ := by
  obtain ⟨hThere, reply, hReply, hStatus, trims⟩ := resolves
  obtain rfl := trimmed_eq_iff.mpr trims
  have hNotNull := (Revisions.isNull_eq_false_iff revision).mpr hThere
  simp [resolve, hNotNull, call_of_attempt hReply, Trace.andThen, hStatus, commitOf]

end

/-- Calls each of which was needed, and after which none can be made that is needed. -/
def Complete (git : Git) (repo : String) (r : Revisions) (calls : List (List String)) : Prop :=
  Made git repo r calls ∧ ∀ arguments, Needed git repo r calls arguments →
    git.attempt calls arguments = none

theorem Reached.complete {before : List (List String)} {revision : String}
    (reached : Reached git repo r before revision) (hNull : Revisions.Null revision) :
    Complete git repo r before :=
  ⟨reached.made, fun _ needed => absurd hNull (reached.needed needed).1⟩

theorem Needed.complete {before : List (List String)} {arguments : List String}
    (needed : Needed git repo r before arguments) (hNone : git.attempt before arguments = none) :
    Complete git repo r before :=
  ⟨needed.made, fun _ needed' => needed.unique needed' ▸ hNone⟩

theorem Compares.complete {base head : String} {reply : Reply}
    (compares : Compares git repo r base head reply) :
    Complete git repo r
      [commitOf repo r.base, commitOf repo r.head, pathsBetween repo base head] := by
  have needed := Needed.paths compares.hBase compares.hHead
  refine ⟨.call needed.made needed compares.started, fun arguments further => ?_⟩
  cases further with
  | commit reached hThere => cases reached

section

variable (git : Git) (repo : String) (r : Revisions)

/-- Either a revision is unknown when it has its turn, or a call that is needed cannot be started,
or `git` comes to compare two commits. -/
theorem outcomes :
    (∃ before revision, Reached git repo r before revision ∧ git.Unknown repo before revision) ∨
    (∃ before arguments, Needed git repo r before arguments ∧
      git.attempt before arguments = none) ∨
    ∃ base head reply, Compares git repo r base head reply := by
  -- a revision that has its turn stops the whole, if it does not resolve
  have hTurn : ∀ before revision, Reached git repo r before revision →
      git.Unknown repo before revision ∨
      (Needed git repo r before (commitOf repo revision) ∧
        git.attempt before (commitOf repo revision) = none) ∨
      ∃ commit, git.Resolves repo before revision commit := by
    intro before revision reached
    by_cases hNull : Revisions.Null revision
    · exact .inl (.inl hNull)
    · cases hAttempt : git.attempt before (commitOf repo revision) with
      | none => exact .inr (.inl ⟨.commit reached hNull, rfl⟩)
      | some reply =>
          by_cases hStatus : reply.status = 0
          · exact .inr (.inr ⟨_, hNull, reply, hAttempt, hStatus, trimmed_eq_iff.mp rfl⟩)
          · exact .inl (.inr ⟨reply, hAttempt, hStatus⟩)
  rcases hTurn _ _ .base with hUnknown | ⟨needed, hNone⟩ | ⟨base, hBase⟩
  · exact .inl ⟨_, _, .base, hUnknown⟩
  · exact .inr (.inl ⟨_, _, needed, hNone⟩)
  · rcases hTurn _ _ (.head hBase) with hUnknown | ⟨needed, hNone⟩ | ⟨head, hHead⟩
    · exact .inl ⟨_, _, .head hBase, hUnknown⟩
    · exact .inr (.inl ⟨_, _, needed, hNone⟩)
    · cases hAttempt : git.attempt [commitOf repo r.base, commitOf repo r.head]
          (pathsBetween repo base head) with
      | none => exact .inr (.inl ⟨_, _, .paths hBase hHead, hAttempt⟩)
      | some reply => exact .inr (.inr ⟨base, head, reply, hBase, hHead, hAttempt⟩)

end

/-- The whole comes down to the difference once both revisions are resolved. -/
theorem changedPaths_of_resolves {base head : String}
    (hBase : git.Resolves repo [] r.base base)
    (hHead : git.Resolves repo [commitOf repo r.base] r.head head) :
    git.changedPaths repo r =
      git.difference repo [commitOf repo r.base, commitOf repo r.head].reverse base head := by
  have hFirst := resolve_of_resolves hBase
  have hSecond := resolve_of_resolves hHead
  simp only [List.reverse_nil, List.reverse_singleton] at hFirst hSecond
  simp [changedPaths, hFirst, hSecond, Trace.andThen]

theorem changedPaths_of_compares {base head : String} {reply : Reply}
    (compares : Compares git repo r base head reply) :
    git.changedPaths repo r =
      ⟨[commitOf repo r.base, commitOf repo r.head, pathsBetween repo base head].reverse,
        if reply.status = 0 then .ok (listedPaths reply.stdout)
        else .error (.diff ("git diff exited with " ++ reply.status.text ++ ": " ++
          trimmed reply.stderr))⟩ := by
  rw [changedPaths_of_resolves compares.hBase compares.hHead, difference,
    call_of_attempt compares.started]
  simp only [Trace.andThen]
  split <;> rfl

/-- The items between the null characters of what `git` has printed. -/
def records (reply : Reply) : List (List Char) :=
  (Text.Utf8.lenient reply.stdout).splitOn '\x00'

section

variable (git : Git) (repo : String) (r : Revisions)

/-- What comes of judging the paths that `git` lists. -/
inductive Ends (d : Detector) : Except Error Decision → Prop where
  | assumed {before : List (List String)} {revision detail : String}
      (reached : Reached git repo r before revision) (unknown : git.Unknown repo before revision) :
      Ends d (.ok (.noComparableParent detail))
  | unstarted {before : List (List String)} {arguments : List String} {detail : String}
      (needed : Needed git repo r before arguments)
      (hNone : git.attempt before arguments = none) : Ends d (.error (.diff detail))
  | refused {base head detail : String} {reply : Reply}
      (compares : Compares git repo r base head reply) (hStatus : reply.status ≠ 0) :
      Ends d (.error (.diff detail))
  | listed {base head : String} {reply : Reply} (compares : Compares git repo r base head reply)
      (hStatus : reply.status = 0) : Ends d (.ok (d.decide (listedPaths reply.stdout)))

variable {git repo r}

variable (git repo r)

end

end ChangeGate.Git
