import Mathlib.Data.List.Infix
import CloudTerminal.Host.Url
import CloudTerminal.Proofs.Numeral

/-!
The URLs of pages as they are written. A URL is put together from parts (`UrlParts`), and it is taken apart at
the first slash, question mark or hash behind the scheme, at the last at sign before that and at the last
colon behind it. As long as no part holds what ends it (`UrlParts.Separate`), each of these cuts finds its
part again, so that the URL is read as what its parts denote (`parse_of_parts`), and whatever is read is put
together in this way (`parts_of_parsed`). The port is the only part that can be wrong (`IsPort`).
-/

namespace CloudTerminal.Host

open PageUrl (isHostEnd)

/-- The scheme that a URL begins with, if it begins with one. -/
inductive Scheme where
  | absent
  | plain
  | secure
  deriving DecidableEq

def Scheme.text : Scheme → String
  | absent => ""
  | plain => "http://"
  | secure => "https://"

/-- What stands in a URL, as it is written there. -/
structure UrlParts where
  scheme : Scheme
  user? : Option String
  host : String
  port? : Option String
  tail : String

/-- A text that is read as a port: its number in digits, with or without a plus sign before them. -/
structure IsPort (text : String) (port : Nat) : Prop where
  written : ∃ digits, (text.toList = digits ∨ text.toList = '+' :: digits) ∧ digits ≠ [] ∧
    (∀ c ∈ digits, c.isDigit = true) ∧ Nat.ofDigitChars 10 digits 0 = port
  range : 1 ≤ port ∧ port ≤ 65535

namespace UrlParts

def text (parts : UrlParts) : String :=
  parts.scheme.text ++ parts.user?.elim "" (· ++ "@") ++ parts.host ++ parts.port?.elim "" (":" ++ ·) ++ parts.tail

/-- What stands behind the user. -/
def hostAndPort (parts : UrlParts) : List Char := parts.host.toList ++ parts.port?.elim [] (':' :: ·.toList)

/-- What stands between the scheme and the tail. -/
def authority (parts : UrlParts) : List Char := parts.user?.elim [] (·.toList ++ ['@']) ++ parts.hostAndPort

/-- Neither the user nor the host holds a character that ends it, and the tail begins with one that ends the
host. -/
structure Separate (parts : UrlParts) : Prop where
  user : ∀ user ∈ parts.user?, ∀ c ∈ user.toList, isHostEnd c = false
  host : ∀ c ∈ parts.host.toList, isHostEnd c = false ∧ c ≠ '@'
  bare : parts.port? = none → ∀ c ∈ parts.host.toList, c ≠ ':'
  tail : ∀ c ∈ parts.tail.toList.head?, isHostEnd c = true

/-- What the parts say about a page. -/
structure Denotes (parts : UrlParts) (url : PageUrl) : Prop where
  secure : url.secure = (parts.scheme == .secure)
  host : url.host = parts.host
  port : Option.Rel IsPort parts.port? url.port?
  path : url.path = if parts.tail = "" then "/" else parts.tail

end UrlParts

section Ports

variable {text : String} {port : Nat}

theorem port_is_filled (isPort : IsPort text port) : text.toList ≠ [] := by
  obtain ⟨digits, same | same, filled, -, -⟩ := isPort.written
  · rwa [same]
  · simp [same]

theorem port_holds_no_mark (isPort : IsPort text port) :
    ∀ c ∈ text.toList, isHostEnd c = false ∧ c ≠ '@' ∧ c ≠ ':' := by
  intro c member
  have digit_or_sign : c = '+' ∨ c.isDigit = true := by
    obtain ⟨digits, same | same, -, solid, -⟩ := isPort.written
    · exact .inr (solid c (same ▸ member))
    · rw [same] at member
      exact (List.mem_cons.mp member).imp_right (solid c)
  have other : ∀ mark ∈ ['/', '?', '#', '@', ':'], c ≠ mark := by
    rintro mark listed rfl
    have no_digit : ∀ mark ∈ ['/', '?', '#', '@', ':'], mark ≠ '+' ∧ mark.isDigit = false := by simp
    obtain ⟨no_sign, no_digit⟩ := no_digit c listed
    rcases digit_or_sign with sign | digit
    · exact no_sign sign
    · simp [digit] at no_digit
  simp_all [isHostEnd]

/-- A port is read exactly from what denotes one, with a plus sign or zeros in front or without. -/
theorem readPort_iff : PageUrl.readPort? text.toList = some port ↔ IsPort text port := by
  have written : Text.readUnsigned? text.toList = some port ↔ ∃ digits,
      (text.toList = digits ∨ text.toList = '+' :: digits) ∧ digits ≠ [] ∧
        (∀ c ∈ digits, c.isDigit = true) ∧ Nat.ofDigitChars 10 digits 0 = port := by
    simp only [Text.read_unsigned_iff, Text.read_decimal_iff]
  unfold PageUrl.readPort?
  constructor
  · intro read
    split at read
    · rename_i number unsigned
      split at read
      · rename_i range
        obtain rfl := Option.some.inj read
        exact ⟨written.mp unsigned, by omega⟩
      · cases read
    · cases read
  · rintro ⟨digits, range⟩
    rw [written.mpr digits]
    exact if_pos (by omega)

theorem port_with_zeros_in_front (zeros : Nat) (range : 1 ≤ port ∧ port ≤ 65535) :
    IsPort (String.ofList (List.replicate zeros '0') ++ toString port) port := by
  refine ⟨⟨List.replicate zeros '0' ++ Nat.toDigits 10 port, .inl (by simp), ?_, ?_, ?_⟩, range⟩
  · exact List.append_ne_nil_of_right_ne_nil _ Nat.toDigits_ne_nil
  · refine List.forall_mem_append.mpr ⟨fun c member => ?_,
      fun c => Nat.isDigit_of_mem_toDigits (by decide) (by decide)⟩
    rw [List.eq_of_mem_replicate member]
    rfl
  · rw [Nat.ofDigitChars_append, Nat.ofDigitChars_replicate_zero]
    exact Nat.ofDigitChars_ten_toDigits

end Ports

/-- The scheme in front is cut off and tells whether the URL is secure; without one, the text must not look as
if it had one. -/
theorem cutScheme_of_text {scheme : Scheme} {rest : List Char}
    (other : scheme = .absent → ∀ name ∈ ["http", "https"], ¬ (name ++ "://").toList <+: rest) :
    PageUrl.cutScheme (scheme.text.toList ++ rest) = (scheme == .secure, rest) := by
  cases scheme with
  | absent =>
    have no_prefix : ∀ name ∈ ["http", "https"], (name ++ "://").toList.isPrefixOf? rest = none := by
      intro name member
      refine Option.eq_none_iff_forall_ne_some.mpr fun behind cut => ?_
      exact other rfl name member ⟨behind, List.isPrefixOf?_eq_some_iff_append_eq.mp cut⟩
    have plain : "http://".toList.isPrefixOf? rest = none := no_prefix "http" (by simp)
    have secure : "https://".toList.isPrefixOf? rest = none := no_prefix "https" (by simp)
    simp only [PageUrl.cutScheme, Scheme.text, String.toList_empty, List.nil_append, plain, secure,
      Option.getD_none]
    rfl
  | plain => rfl
  | secure => rfl

/-- Every text has some scheme in front of what is left, if only the absent one. -/
theorem scheme_is_cut_off (text : List Char) : ∃ scheme : Scheme,
    text = scheme.text.toList ++ (PageUrl.cutScheme text).2 ∧
      (PageUrl.cutScheme text).1 = (scheme == .secure) := by
  unfold PageUrl.cutScheme
  split
  · rename_i rest cut
    exact ⟨.secure, (List.isPrefixOf?_eq_some_iff_append_eq.mp cut).symm, rfl⟩
  · cases cut : "http://".toList.isPrefixOf? text with
    | none => exact ⟨.absent, rfl, rfl⟩
    | some rest => exact ⟨.plain, (List.isPrefixOf?_eq_some_iff_append_eq.mp cut).symm, rfl⟩

/-- The last at sign ends the user, so that the user may hold others. -/
theorem user_is_passed_over (user? : Option String) {hostAndPort : List Char}
    (clear : ∀ c ∈ hostAndPort, c ≠ '@') :
    Text.afterLast (· == '@') (user?.elim [] (·.toList ++ ['@']) ++ hostAndPort) = hostAndPort := by
  have no_mark : ∀ c ∈ hostAndPort, (c == '@') = false := fun c member => beq_eq_false_iff_ne.mpr (clear c member)
  cases user? with
  | none => exact Text.afterLast_of_clear no_mark
  | some user =>
    rw [Option.elim_some, List.append_assoc, List.singleton_append]
    exact Text.afterLast_append_sep rfl user.toList no_mark

/-- Every authority has some user in front of what is left, or none. -/
theorem user_is_found (authority : List Char) : ∃ user? : Option String,
    authority = user?.elim [] (·.toList ++ ['@']) ++ Text.afterLast (· == '@') authority := by
  obtain ⟨-, whole | ⟨user, c, mark, whole⟩⟩ := Text.afterLast_spec (· == '@') authority
  · exact ⟨none, whole⟩
  · obtain rfl : c = '@' := by simpa using mark
    exact ⟨some (String.ofList user), by simpa using whole⟩

namespace UrlParts

variable {parts : UrlParts} {url : PageUrl}

theorem toList_text (parts : UrlParts) :
    parts.text.toList = parts.scheme.text.toList ++ (parts.authority ++ parts.tail.toList) := by
  cases user : parts.user? <;> cases port : parts.port? <;>
    simp [UrlParts.text, authority, hostAndPort, user, port]

theorem port_is_a_number (denotes : parts.Denotes url) : ∀ port ∈ parts.port?, ∃ number, IsPort port number := by
  intro port written
  have related := denotes.port
  rw [Option.mem_def.mp written] at related
  generalize url.port? = number? at related
  cases related with
  | some isPort => exact ⟨_, isPort⟩

section Composed

variable (separate : parts.Separate) (ports : ∀ port ∈ parts.port?, ∃ number, IsPort port number)

include separate ports

theorem authority_holds_no_end : ∀ c ∈ parts.authority, isHostEnd c = false := by
  have host : ∀ c ∈ parts.host.toList, isHostEnd c = false := fun c member => (separate.host c member).1
  refine List.forall_mem_append.mpr ⟨?_, List.forall_mem_append.mpr ⟨host, ?_⟩⟩
  · cases written : parts.user? with
    | none => simp
    | some user => exact List.forall_mem_append.mpr ⟨separate.user user written, by simp [isHostEnd]⟩
  · cases written : parts.port? with
    | none => simp
    | some port =>
      obtain ⟨number, isPort⟩ := ports port written
      exact List.forall_mem_cons.mpr ⟨by decide, fun c member => (port_holds_no_mark isPort c member).1⟩

theorem host_and_port_hold_no_at_sign : ∀ c ∈ parts.hostAndPort, c ≠ '@' := by
  refine List.forall_mem_append.mpr ⟨fun c member => (separate.host c member).2, ?_⟩
  cases written : parts.port? with
  | none => simp
  | some port =>
    obtain ⟨number, isPort⟩ := ports port written
    exact List.forall_mem_cons.mpr ⟨by decide, fun c member => (port_holds_no_mark isPort c member).2.1⟩

/-- The authority ends in the digits of a port, in a host without colons or in the mark behind the user. -/
theorem authority_does_not_end_in_a_colon : parts.authority.getLast? ≠ some ':' := by
  have last_of_filled : ∀ front back : List Char, back ≠ [] → (∀ c ∈ back, c ≠ ':') →
      (front ++ back).getLast? ≠ some ':' := by
    intro front back filled clear
    rw [List.getLast?_append, List.getLast?_eq_some_getLast filled, Option.some_or]
    exact fun same => clear _ (List.getLast_mem filled) (Option.some.inj same)
  unfold authority hostAndPort
  cases written : parts.port? with
  | some port =>
    obtain ⟨number, isPort⟩ := ports port written
    have regrouped : ∀ user host : List Char,
        user ++ (host ++ ':' :: port.toList) = (user ++ (host ++ [':'])) ++ port.toList := by simp
    rw [Option.elim_some, regrouped]
    exact last_of_filled _ _ (port_is_filled isPort) fun c member => (port_holds_no_mark isPort c member).2.2
  | none =>
    rw [Option.elim_none, List.append_nil]
    by_cases nameless : parts.host.toList = []
    · rw [nameless, List.append_nil]
      cases parts.user? with
      | none => simp
      | some user => exact last_of_filled _ _ (List.cons_ne_nil _ _) (by simp)
    · exact last_of_filled _ _ nameless (separate.bare written)

theorem authority_is_cut_off :
    Text.beforeFirst isHostEnd (parts.authority ++ parts.tail.toList) = parts.authority :=
  Text.beforeFirst_append (authority_holds_no_end separate ports) separate.tail

/-- A scheme is not found in front of parts that have none, because its colon would be the last of the
authority. -/
theorem no_scheme_in_front :
    ∀ name ∈ ["http", "https"], ¬ (name ++ "://").toList <+: parts.authority ++ parts.tail.toList := by
  rintro name member ⟨rest, same⟩
  have clear : ∀ c ∈ (name ++ ":").toList, isHostEnd c = false := by
    rcases List.mem_cons.mp member with rfl | later
    · simp [isHostEnd]
    · obtain rfl := List.mem_singleton.mp later
      simp [isHostEnd]
  have whole : (name ++ ":").toList ++ '/' :: '/' :: rest = parts.authority ++ parts.tail.toList := by
    rw [← same]
    simp
  have front : Text.beforeFirst isHostEnd ((name ++ ":").toList ++ '/' :: '/' :: rest) = (name ++ ":").toList :=
    Text.beforeFirst_append clear (by simp [isHostEnd])
  rw [whole, authority_is_cut_off separate ports] at front
  exact authority_does_not_end_in_a_colon separate ports (by simp [front])

theorem scheme_is_cut_off_again :
    PageUrl.cutScheme parts.text.toList = (parts.scheme == .secure, parts.authority ++ parts.tail.toList) := by
  rw [toList_text]
  exact cutScheme_of_text fun _ => no_scheme_in_front separate ports

end Composed

/-- A URL is read as what its parts denote. -/
theorem parse_of_parts (separate : parts.Separate) (denotes : parts.Denotes url) :
    PageUrl.parse parts.text = some url := by
  have ports := port_is_a_number denotes
  have behind : Text.afterLast (· == '@') parts.authority = parts.hostAndPort :=
    user_is_passed_over parts.user? (host_and_port_hold_no_at_sign separate ports)
  have path : (if parts.tail.toList.isEmpty then "/" else String.ofList parts.tail.toList) = url.path := by
    simp [denotes.path]
  simp only [PageUrl.parse, scheme_is_cut_off_again separate ports, authority_is_cut_off separate ports, behind,
    List.drop_left, path, hostAndPort]
  obtain ⟨secure, host, port?, path⟩ := url
  obtain ⟨rfl, rfl, related, -⟩ := denotes
  cases written : parts.port? with
  | none =>
    rw [written] at related
    have bare : Text.cutLast (· == ':') parts.host.toList = none :=
      Text.cutLast_eq_none_iff.mpr fun c member => beq_eq_false_iff_ne.mpr (separate.bare written c member)
    cases related
    simp [bare]
  | some port =>
    rw [written] at related
    cases related with
    | some isPort =>
      have cut : Text.cutLast (· == ':') (parts.host.toList ++ ':' :: port.toList) =
          some (parts.host.toList, port.toList) :=
        Text.cutLast_eq_some_iff.mpr ⟨':', rfl,
          fun c member => beq_eq_false_iff_ne.mpr (port_holds_no_mark isPort c member).2.2, rfl⟩
      simp [cut, readPort_iff.mpr isPort]

theorem separate_by_the_authority (clear : ∀ c ∈ parts.authority, isHostEnd c = false)
    (unmarked : ∀ c ∈ parts.hostAndPort, c ≠ '@') (bare : parts.port? = none → ∀ c ∈ parts.host.toList, c ≠ ':')
    (stops : ∀ c ∈ parts.tail.toList.head?, isHostEnd c = true) : parts.Separate := by
  obtain ⟨in_user, behind⟩ := List.forall_mem_append.mp clear
  have in_host := (List.forall_mem_append.mp behind).1
  have host_unmarked := (List.forall_mem_append.mp unmarked).1
  refine ⟨fun user written c member => ?_, fun c member => ⟨in_host c member, host_unmarked c member⟩, bare, stops⟩
  rw [Option.mem_def.mp written] at in_user
  exact in_user c (List.mem_append_left _ member)

/-- A URL that is read has been put together from parts. -/
theorem parts_of_parsed {text : String} (parsed : PageUrl.parse text = some url) :
    ∃ parts : UrlParts, parts.Separate ∧ parts.text = text ∧ parts.Denotes url := by
  obtain ⟨scheme, whole, secure⟩ := scheme_is_cut_off text.toList
  simp only [PageUrl.parse, secure] at parsed
  generalize (PageUrl.cutScheme text.toList).2 = rest at whole parsed
  obtain ⟨clear, tail, cut, stops⟩ := Text.beforeFirst_spec isHostEnd rest
  generalize Text.beforeFirst isHostEnd rest = authority at clear cut parsed
  subst cut
  rw [List.drop_left] at parsed
  obtain ⟨unmarked, -⟩ := Text.afterLast_spec (· == '@') authority
  obtain ⟨user?, user⟩ := user_is_found authority
  generalize Text.afterLast (· == '@') authority = hostAndPort at unmarked user parsed
  subst user
  have stops : ∀ c ∈ (String.ofList tail).toList.head?, isHostEnd c = true := by simpa using stops
  have path : (if tail.isEmpty then "/" else String.ofList tail) =
      if String.ofList tail = "" then "/" else String.ofList tail := by
    simp
  cases colon : Text.cutLast (· == ':') hostAndPort with
  | none =>
    rw [colon] at parsed
    obtain rfl := Option.some.inj parsed
    let parts : UrlParts := ⟨scheme, user?, String.ofList hostAndPort, none, String.ofList tail⟩
    have host : parts.hostAndPort = hostAndPort := by simp [parts, UrlParts.hostAndPort]
    have written : parts.text = text := by
      rw [← String.toList_inj, toList_text, whole, authority, host, String.toList_ofList]
    have bare : ∀ c ∈ parts.host.toList, c ≠ ':' := by simpa [parts] using Text.cutLast_eq_none_iff.mp colon
    refine ⟨parts, separate_by_the_authority ?_ ?_ (fun _ => bare) stops, written, rfl, rfl, .none, path⟩
    · rwa [authority, host]
    · simpa [host] using unmarked
  | some found =>
    obtain ⟨name, port⟩ := found
    rw [colon] at parsed
    obtain ⟨number, read, rfl⟩ := Option.map_eq_some_iff.mp parsed
    obtain ⟨c, sep, -, split⟩ := Text.cutLast_eq_some_iff.mp colon
    obtain rfl : c = ':' := by simpa using sep
    let parts : UrlParts := ⟨scheme, user?, String.ofList name, some (String.ofList port), String.ofList tail⟩
    have host : parts.hostAndPort = hostAndPort := by simp [parts, UrlParts.hostAndPort, split]
    have written : parts.text = text := by
      rw [← String.toList_inj, toList_text, whole, authority, host, String.toList_ofList]
    have isPort : IsPort (String.ofList port) number := readPort_iff.mp (by simpa using read)
    refine ⟨parts, separate_by_the_authority ?_ ?_ (by simp [parts]) stops, written, rfl, rfl, .some isPort, path⟩
    · rwa [authority, host]
    · simpa [host] using unmarked

end UrlParts

/-- A URL that is put together from a scheme, a user, a host, a port with any number of zeros in front of it
and a tail is taken apart into them. The host ends at the tail's first character, and it holds neither a colon
nor an at sign. -/
theorem url_is_taken_apart_as_it_was_built (scheme : Scheme) (user? : Option String) (host : String)
    (port? : Option Nat) (zeros : Nat) (tail : String)
    (user_ok : ∀ user ∈ user?, ∀ c ∈ user.toList, isHostEnd c = false)
    (host_ok : ∀ c ∈ host.toList, isHostEnd c = false ∧ c ≠ ':' ∧ c ≠ '@')
    (port_ok : ∀ port ∈ port?, 1 ≤ port ∧ port ≤ 65535) (tail_ok : ∀ c ∈ tail.toList.head?, isHostEnd c = true) :
    let user := user?.elim "" (· ++ "@")
    let port := port?.elim "" fun number => ":" ++ (String.ofList (List.replicate zeros '0') ++ toString number)
    ∃ url, PageUrl.parse (scheme.text ++ user ++ host ++ port ++ tail) = some url ∧
      (url.secure = true ↔ scheme = .secure) ∧ url.host = host ∧ url.port? = port? ∧
      url.port = port?.getD (if scheme = .secure then 443 else 80) ∧
        url.path = if tail = "" then "/" else tail := by
  intro user port
  let written? := port?.map fun number => String.ofList (List.replicate zeros '0') ++ toString number
  let parts : UrlParts := ⟨scheme, user?, host, written?, tail⟩
  let url : PageUrl := ⟨scheme == .secure, host, port?, if tail = "" then "/" else tail⟩
  have denoted : Option.Rel IsPort written? port? := by
    cases port? with
    | none => exact .none
    | some number => exact .some (port_with_zeros_in_front zeros (port_ok number rfl))
  have separate : parts.Separate := ⟨user_ok, fun c member => ⟨(host_ok c member).1, (host_ok c member).2.2⟩,
    fun _ c member => (host_ok c member).2.1, tail_ok⟩
  have same : parts.text = scheme.text ++ user ++ host ++ port ++ tail := by
    cases port? <;> rfl
  refine ⟨url, same ▸ UrlParts.parse_of_parts separate ⟨rfl, rfl, denoted, rfl⟩, by simp [url], rfl, rfl, ?_, rfl⟩
  simp [PageUrl.port, url]

/-- The user looks like the end of a scheme, and the tail has the marks of a user and of a port. -/
theorem url_without_a_scheme_is_taken_apart :
    (∀ user ∈ some "http:@me", ∀ c ∈ user.toList, isHostEnd c = false) ∧
    (∀ c ∈ "host.io".toList, isHostEnd c = false ∧ c ≠ ':' ∧ c ≠ '@') ∧
    (∀ port ∈ some 443, 1 ≤ port ∧ port ≤ 65535) ∧ (∀ c ∈ "?to=/b@c:1".toList.head?, isHostEnd c = true) ∧
    ∃ url, PageUrl.parse "http:@me@host.io:00443?to=/b@c:1" = some url ∧
      (url.secure = true ↔ Scheme.absent = .secure) ∧ url.host = "host.io" ∧ url.port? = some 443 ∧
        url.port = 443 ∧
      url.path = "?to=/b@c:1" := by
  have user_ok : ∀ user ∈ some "http:@me", ∀ c ∈ user.toList, isHostEnd c = false := by
    rintro _ ⟨⟩
    simp [isHostEnd]
  have host_ok : ∀ c ∈ "host.io".toList, isHostEnd c = false ∧ c ≠ ':' ∧ c ≠ '@' := by simp [isHostEnd]
  have port_ok : ∀ port ∈ some 443, 1 ≤ port ∧ port ≤ 65535 := by
    rintro _ ⟨⟩
    decide
  have tail_ok : ∀ c ∈ "?to=/b@c:1".toList.head?, isHostEnd c = true := by simp [isHostEnd]
  exact ⟨user_ok, host_ok, port_ok, tail_ok, url_is_taken_apart_as_it_was_built .absent
    (some "http:@me") "host.io" (some 443)
    2 "?to=/b@c:1" user_ok host_ok port_ok tail_ok⟩

/-- A text is read as a URL if and only if it is put together from parts. -/
theorem urls_are_put_together_from_parts (text : String) (url : PageUrl) : PageUrl.parse text = some url ↔
    ∃ parts : UrlParts, parts.Separate ∧ parts.text = text ∧ parts.Denotes url := by
  refine ⟨UrlParts.parts_of_parsed, ?_⟩
  rintro ⟨parts, separate, rfl, denotes⟩
  exact UrlParts.parse_of_parts separate denotes

/-- A port may be read that is not made of digits alone, and a path that does not begin with a slash. -/
theorem port_with_a_sign_is_read :
    let url : PageUrl := ⟨false, "h", some 80, "/"⟩
    PageUrl.parse "http://h:+80/" = some url ∧
      (¬ ∃ parts : UrlParts, parts.Separate ∧ parts.text = "http://h:+80/" ∧ parts.Denotes url ∧
        ∀ port ∈ parts.port?, ∀ c ∈ port.toList, c.isDigit = true) ∧
      PageUrl.parse "http://h?x" = some ⟨false, "h", none, "?x"⟩ := by
  refine ⟨by decide, ?_, by decide⟩
  rintro ⟨⟨scheme, user?, host, port?, tail⟩, separate, written, ⟨-, -, related, path⟩, digits⟩
  cases related with
  | @some port _ isPort =>
    have tail_clear : ∀ c ∈ tail.toList, c ≠ ':' := by
      by_cases short : tail = ""
      · simp [short]
      · obtain rfl : "/" = tail := path.trans (if_neg short)
        simp
    have clear : ∀ c ∈ port.toList ++ tail.toList, (c == ':') = false := by
      refine List.forall_mem_append.mpr ⟨fun c member => ?_, fun c member => ?_⟩
      · exact beq_eq_false_iff_ne.mpr (port_holds_no_mark isPort c member).2.2
      · exact beq_eq_false_iff_ne.mpr (tail_clear c member)
    -- So the colon in front of the port is the last one of the text.
    have split : "http://h:+80/".toList =
        (scheme.text ++ user?.elim "" (· ++ "@") ++ host).toList ++ ':' :: (port.toList ++ tail.toList) := by
      rw [← written]
      simp [UrlParts.text]
    have cut := Text.cutLast_eq_some_iff (p := (· == ':')) |>.mpr ⟨':', beq_self_eq_true ':', clear, split⟩
    have evaluated : Text.cutLast (· == ':') "http://h:+80/".toList = some ("http://h".toList, "+80/".toList) := by
      decide
    rw [evaluated] at cut
    have behind : "+80/".toList = port.toList ++ tail.toList := (Prod.mk.inj (Option.some.inj cut)).2
    obtain ⟨first, others, begins⟩ := List.exists_cons_of_ne_nil (port_is_filled isPort)
    have sign : first = '+' := by
      rw [begins, List.cons_append] at behind
      exact (List.cons.inj behind).1.symm
    have digit := digits port rfl first (begins ▸ List.mem_cons_self)
    rw [sign] at digit
    exact absurd digit (by decide)

end CloudTerminal.Host
