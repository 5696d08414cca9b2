import CloudTerminal.Host.Page
import CloudTerminal.Proofs.PageUrls

/-!
The names of the files that pages are saved in. The path of a page begins with a slash, a question mark or a
hash, and its last segment is what stands behind the last slash in front of the query (`IsLastSegment`). The
file has the name of this segment (`file_is_named_by_the_last_segment`), whatever it is, unless there is none
or it is empty (`file_name_is_a_last_segment`).
-/

namespace CloudTerminal.Host

open PageUrl (isHostEnd)

/-- Whether a character ends the path of a URL in front of it. -/
def isPathEnd (c : Char) : Bool := c == '?' || c == '#'

/-- What stands in a path behind the last slash, up to the first question mark or hash. -/
structure IsLastSegment (segment path : String) : Prop where
  placed : ∃ front rest, path = front ++ "/" ++ segment ++ rest ∧ (∀ c ∈ front.toList, isPathEnd c = false) ∧
    ∀ c ∈ rest.toList.head?, isPathEnd c = true
  clear : ∀ c ∈ segment.toList, isHostEnd c = false

/-- The last segment of a path, empty if there is none. -/
def lastSegment (path : String) : List Char := Text.afterLast (· == '/') (Text.beforeFirst isPathEnd path.toList)

section Segments

variable {segment path : String}

theorem ends_of_a_host (c : Char) : isHostEnd c = (c == '/' || isPathEnd c) := by
  simp [isHostEnd, isPathEnd, Bool.or_assoc]

theorem last_segment_is_found (last : IsLastSegment segment path) : lastSegment path = segment.toList := by
  obtain ⟨⟨front, rest, rfl, open_front, stops⟩, clear⟩ := last
  simp only [ends_of_a_host, Bool.or_eq_false_iff] at clear
  have whole : (front ++ "/" ++ segment ++ rest).toList =
      (front.toList ++ '/' :: segment.toList) ++ rest.toList := by
    simp
  have unended : ∀ c ∈ front.toList ++ '/' :: segment.toList, isPathEnd c = false :=
    List.forall_mem_append.mpr ⟨open_front, List.forall_mem_cons.mpr
      ⟨by decide, fun c member => (clear c member).2⟩⟩
  rw [lastSegment, whole, Text.beforeFirst_append unended stops]
  exact Text.afterLast_append_sep (by decide) _ fun c member => (clear c member).1

/-- A path without a slash in front of its query begins with the query. -/
theorem found_segment_is_last (begins : ∀ c ∈ path.toList.head?, isHostEnd c = true)
    (filled : lastSegment path ≠ []) :
    IsLastSegment (String.ofList (lastSegment path)) path := by
  obtain ⟨unended, rest, whole, stops⟩ := Text.beforeFirst_spec isPathEnd path.toList
  unfold lastSegment at filled ⊢
  generalize Text.beforeFirst isPathEnd path.toList = front at unended whole filled ⊢
  obtain ⟨clear, bare | ⟨before, c, slash, split⟩⟩ := Text.afterLast_spec (· == '/') front
  · -- Without a slash the path begins with its query, and there is nothing in front of that.
    rw [← bare] at filled clear
    obtain ⟨c, others, list⟩ := List.exists_cons_of_ne_nil filled
    have first : c ∈ front := list ▸ List.mem_cons_self
    have ended := begins c (by rw [whole, list]; rfl)
    rw [ends_of_a_host, unended c first, clear c first] at ended
    cases ended
  · obtain rfl : c = '/' := by simpa using slash
    generalize Text.afterLast (· == '/') front = segment at clear split filled ⊢
    subst split
    obtain ⟨in_front, behind⟩ := List.forall_mem_append.mp unended
    refine ⟨⟨String.ofList before, String.ofList rest, ?_, by simpa using in_front, by simpa using stops⟩, ?_⟩
    · rw [← String.toList_inj, whole]
      simp
    · intro c member
      have inside : c ∈ segment := by simpa using member
      rw [ends_of_a_host, clear c inside, (List.forall_mem_cons.mp behind).2 c inside]
      rfl

end Segments

section Files

variable {page : Page} {name : String}

/-- The name of the file is the last segment of the path, or a fixed one for a path that ends in a slash. -/
theorem fileName_eq (page : Page) : page.fileName =
    if lastSegment page.url.path = [] then "index.html" else String.ofList (lastSegment page.url.path) := by
  have same : page.fileName = if (lastSegment page.url.path).isEmpty then "index.html"
      else String.ofList (lastSegment page.url.path) := rfl
  simpa using same

theorem file_is_named_by_the_last_segment (last : IsLastSegment name page.url.path) (filled : name ≠ "") :
    page.fileName = name := by
  rw [fileName_eq, last_segment_is_found last, if_neg (by simpa using filled), String.ofList_toList]

/-- A file that does not have the fixed name has that of the last segment, provided that the path begins as
paths of pages do. -/
theorem file_name_is_a_last_segment (begins : ∀ c ∈ page.url.path.toList.head?, isHostEnd c = true)
    (other : page.fileName ≠ "index.html") : page.fileName ≠ "" ∧ IsLastSegment page.fileName page.url.path := by
  rw [fileName_eq] at other ⊢
  split at other
  · exact absurd rfl other
  · rename_i filled
    rw [if_neg filled]
    exact ⟨by simpa using filled, found_segment_is_last begins filled⟩

/-- The name of a file is not empty and holds no mark that ends a host, and so no slash. -/
theorem file_name_is_clear (begins : ∀ c ∈ page.url.path.toList.head?, isHostEnd c = true) :
    page.fileName ≠ "" ∧ ∀ c ∈ page.fileName.toList, isHostEnd c = false := by
  by_cases other : page.fileName = "index.html"
  · rw [other]
    exact ⟨by decide, by simp [isHostEnd]⟩
  · obtain ⟨filled, last⟩ := file_name_is_a_last_segment begins other
    exact ⟨filled, last.clear⟩

end Files

/-- What is read of a path begins with one of the characters that end the host. -/
theorem path_begins_with_an_end {text : String} {url : PageUrl} (parsed : PageUrl.parse text = some url) :
    (∀ c ∈ url.path.toList.head?, isHostEnd c = true) ∧ ∀ c ∈ url.path.toList, c = '/' ∨ c ∈ text.toList := by
  obtain ⟨parts, separate, rfl, denotes⟩ := UrlParts.parts_of_parsed parsed
  rw [denotes.path]
  split
  · exact ⟨by simp [isHostEnd], by simp⟩
  · exact ⟨separate.tail, fun c member => .inr (by simp [UrlParts.toList_text, member])⟩

end CloudTerminal.Host
