import Mathlib.Data.List.Infix
import CloudTerminal.Repository.Url

/-!
The directories that URLs name. A segment of a URL begins behind a slash or a colon, and the last one may have
slashes behind it (`IsLastSegment`). The directory has the name of this segment without one `.git` at its end.
Since a name that is valid holds neither slashes nor colons, it can be read off a URL in exactly one of two
places (`url_names_a_directory_iff`).
-/

namespace CloudTerminal.Repository

/-- Whether a directory to clone into can have a name. -/
structure IsDirectoryName (name : String) : Prop where
  filled : name ≠ ""
  proper : name ≠ "." ∧ name ≠ ".."
  characters : ∀ c ∈ name.toList, c.isAlphanum = true ∨ c = '-' ∨ c = '_' ∨ c = '.'

/-- Whether a segment stands at the end of a URL, with nothing but slashes behind it, and with nothing in
front of it or what ends in a slash or a colon. -/
def IsLastSegment (segment url : String) : Prop :=
  ∃ front count, url = front ++ segment ++ String.ofList (List.replicate count '/') ∧
    ∀ c ∈ front.toList.getLast?, c = '/' ∨ c = ':'

/-- Whether a character stands between two segments of a URL. -/
def isSegmentEnd (c : Char) : Bool := c == '/' || c == ':'

/-- What stands behind the last slash or colon of a URL, not counting the slashes at its end. -/
def lastSegment (url : String) : List Char := Text.afterLast isSegmentEnd (Text.trimEnd (· == '/') url.toList)

/-- A segment without one `.git` at its end. -/
def withoutGit (segment : List Char) : List Char := (".git".toList.isSuffixOf? segment).getD segment

section Names

variable {name segment url : String}

theorem valid_iff_directory_name (name : String) : isValidDirectory name = true ↔ IsDirectoryName name := by
  simp only [isValidDirectory, Bool.and_eq_true, bne_iff_ne, List.all_eq_true, Bool.or_eq_true,
    List.contains_eq_mem, decide_eq_true_eq, List.mem_cons, List.not_mem_nil, or_false]
  constructor
  · rintro ⟨⟨⟨filled, one⟩, two⟩, characters⟩
    exact ⟨filled, ⟨one, two⟩, characters⟩
  · rintro ⟨filled, ⟨one, two⟩, characters⟩
    exact ⟨⟨⟨filled, one⟩, two⟩, characters⟩

theorem IsDirectoryName.clear (valid : IsDirectoryName name) : ∀ c ∈ name.toList, isSegmentEnd c = false := by
  intro c member
  rcases valid.characters c member with letter | rfl | rfl | rfl
  · simp only [isSegmentEnd, Bool.or_eq_false_iff, beq_eq_false_iff_ne]
    constructor <;> rintro rfl <;> exact absurd letter (by decide)
  all_goals decide

/-- One `.git` at the end is taken off, and a text without one is kept. -/
theorem without_git_iff {segment name : List Char} : withoutGit segment = name ↔
    segment = name ++ ".git".toList ∨ segment = name ∧ ¬".git".toList <:+ name := by
  have found (stem : List Char) :
      ".git".toList.isSuffixOf? segment = some stem ↔ stem ++ ".git".toList = segment :=
    List.isSuffixOf?_eq_some_iff_append_eq
  unfold withoutGit
  cases cut : ".git".toList.isSuffixOf? segment with
  | none =>
    have whole : ¬".git".toList <:+ segment := by
      rintro ⟨stem, same⟩
      rw [(found stem).mpr same] at cut
      cases cut
    constructor
    · rintro rfl
      exact .inr ⟨rfl, whole⟩
    · rintro (rfl | ⟨rfl, -⟩)
      · exact absurd (List.suffix_append _ _) whole
      · rfl
  | some stem =>
    obtain rfl := (found stem).mp cut
    constructor
    · rintro rfl
      exact .inl rfl
    · rintro (same | ⟨rfl, whole⟩)
      · exact List.append_cancel_right same
      · exact absurd (List.suffix_append _ _) whole

/-- What is read behind the slashes and colons of a URL is the segment at its end, given that this is not
empty and is clear of both. -/
theorem last_segment_iff (filled : segment ≠ "") (clear : ∀ c ∈ segment.toList, isSegmentEnd c = false) :
    lastSegment url = segment.toList ↔ IsLastSegment segment url := by
  constructor
  · intro last
    obtain ⟨count, whole⟩ := Text.trimmed_repetition '/' url.toList
    obtain ⟨front, path, ends⟩ := Text.text_before_afterLast isSegmentEnd (Text.trimEnd (· == '/') url.toList)
    refine ⟨String.ofList front, count, ?_, by simpa [isSegmentEnd] using ends⟩
    rw [← String.toList_inj, whole, path, ← lastSegment, last]
    simp
  · rintro ⟨front, count, rfl, ends⟩
    -- The segment holds no slash, and it is not empty, so that no slash in front of it is trimmed.
    have characters : segment.toList ≠ [] := by simpa using filled
    have kept : ∀ c ∈ (front.toList ++ segment.toList).getLast?, (c == '/') = false := by
      intro c last
      rw [List.getLast?_append_of_ne_nil _ characters] at last
      exact (Bool.or_eq_false_iff.mp (clear c (List.mem_of_getLast? last))).1
    rw [lastSegment, String.toList_append, String.toList_append, String.toList_ofList,
      Text.trimEnd_before_trimmed (by simp), Text.trimEnd_of_kept_last kept]
    exact Text.afterLast_append (by simpa [isSegmentEnd] using ends) clear

/-- The directory of a URL is the last segment without its `.git`, provided that it is a valid name. -/
theorem directory_of_url_iff_read (url name : String) :
    directoryOfUrl? url = some name ↔ IsDirectoryName name ∧ withoutGit (lastSegment url) = name.toList := by
  have same : directoryOfUrl? url = if isValidDirectory (String.ofList (withoutGit (lastSegment url)))
      then some (String.ofList (withoutGit (lastSegment url))) else none := rfl
  rw [same, Option.ite_none_right_eq_some, valid_iff_directory_name, Option.some.injEq]
  constructor
  · rintro ⟨valid, rfl⟩
    exact ⟨valid, String.toList_ofList.symm⟩
  · rintro ⟨valid, found⟩
    rw [found, String.ofList_toList]
    exact ⟨valid, rfl⟩

/-- A URL names a directory exactly if the name is valid and its last segment is the name with `.git` behind
it, or the name alone, if that does not end in `.git` itself. -/
theorem url_names_a_directory_iff (url name : String) : directoryOfUrl? url = some name ↔ IsDirectoryName name ∧
    (IsLastSegment (name ++ ".git") url ∨ IsLastSegment name url ∧ ¬∃ stem, name = stem ++ ".git") := by
  have suffix : ".git".toList <:+ name.toList ↔ ∃ stem, name = stem ++ ".git" := by
    constructor
    · rintro ⟨stem, same⟩
      exact ⟨String.ofList stem, String.toList_injective (by simpa using same.symm)⟩
    · rintro ⟨stem, rfl⟩
      exact ⟨stem.toList, String.toList_append.symm⟩
  rw [directory_of_url_iff_read, without_git_iff, suffix]
  refine and_congr_right fun valid => ?_
  have clear : ∀ c ∈ (name ++ ".git").toList, isSegmentEnd c = false := by
    rw [String.toList_append]
    exact List.forall_mem_append.mpr ⟨valid.clear, by simp [isSegmentEnd]⟩
  rw [← last_segment_iff (by simp) clear, ← last_segment_iff valid.filled valid.clear, String.toList_append]

/-- Only one `.git` is taken off. -/
example : directoryOfUrl? "git@host:mirrors/app.git.git//" = some "app.git" := by decide

end Names

end CloudTerminal.Repository
