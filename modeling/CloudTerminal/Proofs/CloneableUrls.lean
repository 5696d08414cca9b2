import Mathlib.Logic.ExistsUnique
import CloudTerminal.Proofs.CloneUrls

/-!
The URLs that can be cloned. Such a URL is written in one of two forms, with a known scheme or with a user in
front of the host (`CloneUrl`). Each part ends at the first of the marks that end it, so that a URL is read as
the parts that it is written from (`parts_of_cloneable`, `cloneable_of_parts`), and in no other way
(`text_determines_the_parts`). In both forms a mark that ends a segment stands in front of the path, and the
path holds more than slashes. So the last segment of a URL is that of its path
(`last_segment_is_in_the_path`).
-/

namespace CloudTerminal.Repository

/-- A text that can be the host of a URL to clone from. -/
structure IsCloneHost (host : String) : Prop where
  filled : host ≠ ""
  characters : ∀ c ∈ host.toList, c.isAlphanum = true ∨ c = '-' ∨ c = '.'

/-- Whether a text is the host in `[user@]host[:port]`: it stands behind the last at sign, up to the first
colon there. -/
def IsHostOf (host authority : String) : Prop :=
  ∃ login port, authority = login ++ host ++ port ∧ (∀ c ∈ login.toList.getLast?, c = '@') ∧
    (∀ c ∈ port.toList.head?, c = ':') ∧ ':' ∉ host.toList ∧ '@' ∉ (host ++ port).toList

/-- What a URL that can be cloned is written from. -/
inductive CloneUrl where
  | ofScheme (scheme authority path : String)
  | ofLogin (user authority path : String)

namespace CloneUrl

/-- What stands in front of the path. -/
def location : CloneUrl → String
  | ofScheme scheme authority _ => scheme ++ authority ++ "/"
  | ofLogin user authority _ => user ++ "@" ++ authority ++ ":"

def authority : CloneUrl → String
  | ofScheme _ authority _ => authority
  | ofLogin _ authority _ => authority

def path : CloneUrl → String
  | ofScheme _ _ path => path
  | ofLogin _ _ path => path

def text (parts : CloneUrl) : String := parts.location ++ parts.path

/-- The form of the URL can be seen in it, and no part holds the mark that ends it. -/
def Separate : CloneUrl → Prop
  | ofScheme scheme authority _ => scheme ∈ schemes ∧ '/' ∉ authority.toList
  | ofLogin user authority path =>
    (∀ scheme ∈ schemes, ¬ scheme.toList <+: (ofLogin user authority path).text.toList) ∧
      user ≠ "" ∧ '@' ∉ user.toList ∧ ':' ∉ user.toList ∧ ':' ∉ authority.toList

/-- Whether the parts are those of a URL that can be cloned. -/
structure WellFormed (parts : CloneUrl) : Prop where
  separate : parts.Separate
  host : ∃ host, IsHostOf host parts.authority ∧ IsCloneHost host
  path : ∃ c ∈ parts.path.toList, c ≠ '/'

end CloneUrl

section Hosts

variable {host authority : String}

/-- The host is read between the last at sign and the first colon behind it, if there are such. -/
theorem host_of_authority_iff :
    hostOfAuthority authority.toList = host.toList ↔ IsHostOf host authority := by
  constructor
  · intro found
    obtain ⟨login, whole, ends⟩ := Text.text_before_afterLast (· == '@') authority.toList
    obtain ⟨unmarked, -⟩ := Text.afterLast_spec (· == '@') authority.toList
    obtain ⟨clear, port, behind, stops⟩ :=
      Text.beforeFirst_spec (· == ':') (Text.afterLast (· == '@') authority.toList)
    rw [← hostOfAuthority, found] at clear behind
    rw [behind] at whole unmarked
    refine ⟨String.ofList login, String.ofList port, ?_, by simpa using ends, by simpa using stops, ?_, ?_⟩
    · rw [← String.toList_inj, whole]
      simp
    · exact fun member => by simpa using clear _ member
    · intro member
      simpa using unmarked '@' (by simpa using member)
  · rintro ⟨login, port, rfl, ends, stops, clear, unmarked⟩
    have regrouped : (login ++ host ++ port).toList = login.toList ++ (host ++ port).toList := by simp
    have behind : Text.afterLast (· == '@') (login ++ host ++ port).toList = (host ++ port).toList := by
      rw [regrouped]
      refine Text.afterLast_append (by simpa using ends) fun c member => ?_
      exact beq_false_of_ne fun mark => unmarked (mark ▸ member)
    rw [hostOfAuthority, behind, String.toList_append]
    refine Text.beforeFirst_append (fun c member => ?_) (by simpa using stops)
    exact beq_false_of_ne fun mark => clear (mark ▸ member)

theorem valid_host_iff : hasValidHost authority.toList = true ↔
    ∃ host, IsHostOf host authority ∧ IsCloneHost host := by
  have plain (host : String) : (!host.toList.isEmpty &&
      host.toList.all fun c => c.isAlphanum || ['-', '.'].contains c) = true ↔ IsCloneHost host := by
    simp only [Bool.and_eq_true, Bool.not_eq_true', List.isEmpty_eq_false_iff, List.all_eq_true, Bool.or_eq_true,
      List.contains_eq_mem, decide_eq_true_eq, List.mem_cons, List.not_mem_nil, or_false, ne_eq,
      String.toList_eq_nil_iff]
    refine ⟨?_, fun valid => ⟨valid.filled, valid.characters⟩⟩
    rintro ⟨filled, characters⟩
    exact ⟨filled, characters⟩
  simp only [← host_of_authority_iff, ← plain]
  constructor
  · intro valid
    refine ⟨String.ofList (hostOfAuthority authority.toList), String.toList_ofList.symm, ?_⟩
    rw [String.toList_ofList]
    exact valid
  · rintro ⟨host, found, valid⟩
    rwa [hasValidHost, found]

end Hosts

section Schemes

/-- No scheme begins another one, so that a text has at most one of them in front. -/
theorem schemes_are_told_apart {scheme scheme' : String} {rest rest' : List Char} (known : scheme ∈ schemes)
    (known' : scheme' ∈ schemes) (same : scheme.toList ++ rest = scheme'.toList ++ rest') :
    scheme = scheme' ∧ rest = rest' := by
  simp only [schemes, List.mem_cons, List.not_mem_nil, or_false] at known known'
  rcases known with rfl | rfl | rfl | rfl <;> rcases known' with rfl | rfl | rfl | rfl <;> simp_all

theorem behind_the_scheme_iff {text rest : List Char} :
    schemes.findSome? (fun scheme => scheme.toList.isPrefixOf? text) = some rest ↔
      ∃ scheme ∈ schemes, scheme.toList ++ rest = text := by
  have sound {rest : List Char}
      (found : schemes.findSome? (fun scheme => scheme.toList.isPrefixOf? text) = some rest) :
      ∃ scheme ∈ schemes, scheme.toList ++ rest = text := by
    obtain ⟨scheme, known, cut⟩ := List.exists_of_findSome?_eq_some found
    exact ⟨scheme, known, List.isPrefixOf?_eq_some_iff_append_eq.mp cut⟩
  refine ⟨sound, ?_⟩
  rintro ⟨scheme, known, whole⟩
  cases found : schemes.findSome? (fun scheme => scheme.toList.isPrefixOf? text) with
  | none =>
    have uncut := List.findSome?_eq_none_iff.mp found scheme known
    rw [List.isPrefixOf?_eq_some_iff_append_eq.mpr whole] at uncut
    cases uncut
  | some other =>
    obtain ⟨scheme', known', whole'⟩ := sound found
    rw [(schemes_are_told_apart known known' (whole.trans whole'.symm)).2]

theorem no_scheme_iff {text : List Char} :
    schemes.findSome? (fun scheme => scheme.toList.isPrefixOf? text) = none ↔
      ∀ scheme ∈ schemes, ¬ scheme.toList <+: text := by
  rw [Option.eq_none_iff_forall_ne_some]
  simp only [ne_eq, behind_the_scheme_iff]
  constructor
  · rintro absent scheme known ⟨rest, whole⟩
    exact absent rest ⟨scheme, known, whole⟩
  · rintro absent rest ⟨scheme, known, whole⟩
    exact absent scheme known ⟨rest, whole⟩

end Schemes

theorem segment_iff {path : String} : hasSegment path.toList = true ↔ ∃ c ∈ path.toList, c ≠ '/' := by
  simp [hasSegment]

namespace CloneUrl

section Text

variable (scheme user authority path : String)

theorem toList_of_scheme : (ofScheme scheme authority path).text.toList =
    scheme.toList ++ (authority.toList ++ '/' :: path.toList) := by
  simp [text, location, CloneUrl.path]

theorem toList_of_login : (ofLogin user authority path).text.toList =
    (user.toList ++ '@' :: authority.toList) ++ ':' :: path.toList := by
  simp [text, location, CloneUrl.path]

end Text

variable {parts : CloneUrl}

/-- A URL that can be cloned is written from parts. -/
theorem parts_of_cloneable {url : String} (cloneable : isCloneable url = true) :
    ∃ parts : CloneUrl, parts.WellFormed ∧ parts.text = url := by
  have written (text : List Char) : ∃ whole : String, whole.toList = text := ⟨.ofList text, String.toList_ofList⟩
  unfold isCloneable at cloneable
  split at cloneable
  · rename_i rest found
    obtain ⟨scheme, known, whole⟩ := behind_the_scheme_iff.mp found
    split at cloneable
    · cases cloneable
    · rename_i authority path cut
      obtain ⟨clear, rfl⟩ := Text.cutFirst_at_iff.mp cut
      obtain ⟨host, segment⟩ := Bool.and_eq_true_iff.mp cloneable
      obtain ⟨authority, rfl⟩ := written authority
      obtain ⟨path, rfl⟩ := written path
      refine ⟨.ofScheme scheme authority path,
        ⟨⟨known, clear⟩, valid_host_iff.mp host, segment_iff.mp segment⟩, ?_⟩
      rw [← String.toList_inj, toList_of_scheme, whole]
  · rename_i unknown
    split at cloneable
    · cases cloneable
    · rename_i login path cut
      obtain ⟨unparted, whole⟩ := Text.cutFirst_at_iff.mp cut
      split at cloneable
      · cases cloneable
      · rename_i user authority marked
        obtain ⟨clear, rfl⟩ := Text.cutFirst_at_iff.mp marked
        simp only [Bool.and_eq_true, Bool.not_eq_true', List.isEmpty_eq_false_iff] at cloneable
        obtain ⟨⟨filled, host⟩, segment⟩ := cloneable
        simp only [List.mem_append, List.mem_cons, not_or] at unparted
        obtain ⟨user, rfl⟩ := written user
        obtain ⟨authority, rfl⟩ := written authority
        obtain ⟨path, rfl⟩ := written path
        have same : (ofLogin user authority path).text = url := by
          rw [← String.toList_inj, toList_of_login, whole]
        have schemeless := no_scheme_iff.mp unknown
        rw [← same] at schemeless
        exact ⟨.ofLogin user authority path, ⟨⟨schemeless, by simpa using filled, clear, unparted.1, unparted.2.2⟩,
          valid_host_iff.mp host, segment_iff.mp segment⟩, same⟩

/-- What is written from well-formed parts can be cloned, in both forms. -/
theorem cloneable_of_parts (wellFormed : parts.WellFormed) : isCloneable parts.text = true := by
  obtain ⟨separate, host, segment⟩ := wellFormed
  have host : hasValidHost parts.authority.toList = true := valid_host_iff.mpr host
  have segment : hasSegment parts.path.toList = true := segment_iff.mpr segment
  cases parts with
  | ofScheme scheme authority path =>
    obtain ⟨known, clear⟩ := separate
    have found := behind_the_scheme_iff.mpr ⟨scheme, known, (toList_of_scheme scheme authority path).symm⟩
    have cut : Text.cutFirst (· == '/') (authority.toList ++ '/' :: path.toList) =
        some (authority.toList, path.toList) := Text.cutFirst_at_iff.mpr ⟨clear, rfl⟩
    simp only [isCloneable, found, cut]
    exact Bool.and_eq_true_iff.mpr ⟨host, segment⟩
  | ofLogin user authority path =>
    obtain ⟨schemeless, filled, clear, user_unparted, authority_unparted⟩ := separate
    have unparted : ':' ∉ user.toList ++ '@' :: authority.toList := by simp [user_unparted, authority_unparted]
    have cut : Text.cutFirst (· == ':') (ofLogin user authority path).text.toList =
        some (user.toList ++ '@' :: authority.toList, path.toList) :=
      Text.cutFirst_at_iff.mpr ⟨unparted, toList_of_login user authority path⟩
    have marked : Text.cutFirst (· == '@') (user.toList ++ '@' :: authority.toList) =
        some (user.toList, authority.toList) := Text.cutFirst_at_iff.mpr ⟨clear, rfl⟩
    have filled : (!user.toList.isEmpty) = true := by simpa using filled
    simp only [isCloneable, no_scheme_iff.mpr schemeless, cut, marked, filled, Bool.true_and]
    exact Bool.and_eq_true_iff.mpr ⟨host, segment⟩

/-- A URL is written from its parts in one way only. -/
theorem text_determines_the_parts {parts parts' : CloneUrl} (separate : parts.Separate)
    (separate' : parts'.Separate)
    (same : parts.text = parts'.text) : parts = parts' := by
  have characters := congrArg String.toList same
  cases parts with
  | ofScheme scheme authority path =>
    cases parts' with
    | ofScheme scheme' authority' path' =>
      rw [toList_of_scheme, toList_of_scheme] at characters
      obtain ⟨rfl, rest⟩ := schemes_are_told_apart separate.1 separate'.1 characters
      obtain ⟨authorities, paths⟩ := Text.text_up_to_separator separate.2 separate'.2 rest
      rw [String.toList_injective authorities, String.toList_injective paths]
    | ofLogin user authority' path' =>
      rw [toList_of_scheme] at characters
      exact absurd ⟨_, characters⟩ (separate'.1 scheme separate.1)
  | ofLogin user authority path =>
    cases parts' with
    | ofScheme scheme authority' path' =>
      rw [toList_of_scheme] at characters
      exact absurd ⟨_, characters.symm⟩ (separate.1 scheme separate'.1)
    | ofLogin user' authority' path' =>
      obtain ⟨-, -, clear, unparted, host_unparted⟩ := separate
      obtain ⟨-, -, clear', unparted', host_unparted'⟩ := separate'
      rw [toList_of_login, toList_of_login] at characters
      obtain ⟨logins, paths⟩ := Text.text_up_to_separator (by simp [unparted, host_unparted])
        (by simp [unparted', host_unparted']) characters
      obtain ⟨users, authorities⟩ := Text.text_up_to_separator clear clear' logins
      rw [String.toList_injective users, String.toList_injective authorities, String.toList_injective paths]

/-- The last segment of a URL is that of its path. -/
theorem last_segment_is_in_the_path (segment : ∃ c ∈ parts.path.toList, c ≠ '/') :
    lastSegment parts.text = lastSegment parts.path := by
  obtain ⟨front, mark, ends, whole⟩ :
      ∃ front mark, isSegmentEnd mark = true ∧ parts.text.toList = front ++ mark :: parts.path.toList := by
    cases parts with
    | ofScheme scheme authority path =>
      exact ⟨scheme.toList ++ authority.toList, '/', rfl, by rw [toList_of_scheme, List.append_assoc]; rfl⟩
    | ofLogin user authority path => exact ⟨_, ':', rfl, toList_of_login user authority path⟩
  obtain ⟨c, member, other⟩ := segment
  have kept : Text.trimEnd (· == '/') parts.path.toList ≠ [] :=
    Text.trimEnd_of_kept member (beq_false_of_ne other)
  have regrouped : front ++ mark :: parts.path.toList = (front ++ [mark]) ++ parts.path.toList := by simp
  rw [lastSegment, whole, regrouped, Text.trimEnd_append _ kept, List.append_assoc, List.singleton_append,
    Text.afterLast_behind_sep ends]
  rfl

end CloneUrl

/-- The directory that a URL names stands in its last segment, with one `.git` behind it or without any. -/
theorem directory_of_the_last_segment {url name : String} (named : directoryOfUrl? url = some name) :
    ∃ segment, IsLastSegment segment url ∧ (∀ c ∈ segment.toList, c ≠ '/' ∧ c ≠ ':') ∧
      (segment = name ++ ".git" ∨ segment = name ∧ ¬∃ stem, name = stem ++ ".git") := by
  obtain ⟨valid, read⟩ := (directory_of_url_iff_read url name).mp named
  have clear : ∀ c ∈ (String.ofList (lastSegment url)).toList, isSegmentEnd c = false := by
    rw [String.toList_ofList]
    exact (Text.afterLast_spec isSegmentEnd _).1
  have written : String.ofList (lastSegment url) = name ++ ".git" ∨
      String.ofList (lastSegment url) = name ∧ ¬∃ stem, name = stem ++ ".git" := by
    rcases without_git_iff.mp read with same | ⟨same, whole⟩
    · rw [same, ← String.toList_append, String.ofList_toList]
      exact .inl rfl
    · rw [same, String.ofList_toList]
      refine .inr ⟨rfl, ?_⟩
      rintro ⟨stem, rfl⟩
      exact whole ⟨stem.toList, String.toList_append.symm⟩
  have filled : String.ofList (lastSegment url) ≠ "" := by
    rcases written with same | ⟨same, -⟩
    · simp [same]
    · rw [same]
      exact valid.filled
  refine ⟨_, (last_segment_iff filled clear).mp String.toList_ofList.symm, fun c member => ?_, written⟩
  simpa [isSegmentEnd] using clear c member

/-- A URL can be cloned exactly if it is written from parts in one of the two forms, and it is so in one way
only. The directory that it then names is that of its path alone: the last segment there without one `.git` at
its end. -/
theorem cloneable_url_names_a_directory_of_its_path (url : String) :
    (isCloneable url = true ↔ ∃! parts : CloneUrl, parts.WellFormed ∧ parts.text = url) ∧
      ∀ parts : CloneUrl, parts.WellFormed → parts.text = url →
        directoryOfUrl? url = directoryOfUrl? parts.path ∧
          ∀ name, directoryOfUrl? url = some name → ∃ segment, IsLastSegment segment parts.path ∧
            (∀ c ∈ segment.toList, c ≠ '/' ∧ c ≠ ':') ∧
            (segment = name ++ ".git" ∨ segment = name ∧ ¬∃ stem, name = stem ++ ".git") := by
  refine ⟨⟨fun cloneable => ?_, ?_⟩, ?_⟩
  · obtain ⟨parts, wellFormed, same⟩ := CloneUrl.parts_of_cloneable cloneable
    refine ⟨parts, ⟨wellFormed, same⟩, fun parts' other => ?_⟩
    exact CloneUrl.text_determines_the_parts other.1.separate wellFormed.separate (other.2.trans same.symm)
  · rintro ⟨parts, ⟨wellFormed, rfl⟩, -⟩
    exact CloneUrl.cloneable_of_parts wellFormed
  · rintro parts wellFormed rfl
    have same : directoryOfUrl? parts.text = directoryOfUrl? parts.path := by
      refine Option.ext fun name => ?_
      rw [directory_of_url_iff_read, directory_of_url_iff_read,
        CloneUrl.last_segment_is_in_the_path wellFormed.path]
    exact ⟨same, fun name named => directory_of_the_last_segment (same.symm.trans named)⟩

/-- The authority has two at signs and a port, and the path has a colon and ends in a doubled `.git` with
slashes behind it. -/
theorem directory_of_a_url_with_a_port :
    let parts : CloneUrl := .ofScheme "ssh://" "git:a@b@host.io:22" "team:x/app.git.git//"
    parts.WellFormed ∧ parts.text = "ssh://git:a@b@host.io:22/team:x/app.git.git//" ∧
      directoryOfUrl? "ssh://git:a@b@host.io:22/team:x/app.git.git//" = some "app.git" ∧
      ∃ segment, IsLastSegment segment "team:x/app.git.git//" ∧ (∀ c ∈ segment.toList, c ≠ '/' ∧ c ≠ ':') ∧
        (segment = "app.git" ++ ".git" ∨ segment = "app.git" ∧ ¬∃ stem, "app.git" = stem ++ ".git") := by
  intro parts
  have host : IsHostOf "host.io" "git:a@b@host.io:22" :=
    ⟨"git:a@b@", ":22", by decide, by simp, by simp, by simp, by simp⟩
  have plain : IsCloneHost "host.io" := ⟨by decide, by simp⟩
  have wellFormed : parts.WellFormed :=
    ⟨⟨by simp [schemes], by simp⟩, ⟨_, host, plain⟩, ⟨'a', by simp [parts, CloneUrl.path], by decide⟩⟩
  have written : parts.text = "ssh://git:a@b@host.io:22/team:x/app.git.git//" := by decide
  have named : directoryOfUrl? "ssh://git:a@b@host.io:22/team:x/app.git.git//" = some "app.git" := by decide
  obtain ⟨-, directory⟩ :=
    cloneable_url_names_a_directory_of_its_path "ssh://git:a@b@host.io:22/team:x/app.git.git//"
  exact ⟨wellFormed, written, named, (directory parts wellFormed written).2 "app.git" named⟩

end CloudTerminal.Repository
