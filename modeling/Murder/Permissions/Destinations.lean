import Mathlib.Data.List.Infix
import Murder.Contracts.Casing

/-! The canonical form of a network destination, and which canonical destinations are their
own: a host that lost its brackets may be read as another host and a port.
-/

namespace Murder.Permissions

open Contracts Library.Trimming

/-- `_check_bracketed_host`: whether the text in brackets is an IPv6 or an IPvFuture address. -/
class BracketedHost where
  accepted : List Char → Bool

structure SplitResult where
  scheme : List Char
  netloc : List Char
  path : List Char
  query : List Char

def schemeChars : List Char :=
  "abcdefghijklmnopqrstuvwxyzABCDEFGHIJKLMNOPQRSTUVWXYZ0123456789+-.".toList

def endsNetloc (c : Char) : Bool := c == '/' || c == '?' || c == '#'

def splitScheme [Unicode] (url : List Char) : List Char × List Char :=
  let (scheme, rest) := partition ':' url
  if ':' ∈ url ∧ scheme.head?.any Char.isAlpha ∧ scheme.all (· ∈ schemeChars) then
    (lower scheme, rest)
  else
    ([], url)

/-- `_splitnetloc` of a URL that holds an authority. -/
def splitNetloc (url : List Char) : List Char × List Char :=
  if ['/', '/'] <+: url then
    ((url.drop 2).takeWhile (! endsNetloc ·), (url.drop 2).dropWhile (! endsNetloc ·))
  else ([], url)

def bracketsAccepted [BracketedHost] (netloc : List Char) : Bool :=
  if '[' ∈ netloc ∧ ']' ∈ netloc then
    BracketedHost.accepted (partition ']' (partition '[' netloc).2).1
  else '[' ∉ netloc ∧ ']' ∉ netloc

/-- `_checknetloc`: no character decomposes into a delimiter. -/
def checkNetloc [Unicode] (netloc : List Char) : Bool :=
  let plain := netloc.filter (· ∉ ['@', ':', '#', '?'])
  netloc.all isAscii || nfkc plain = plain || !(nfkc plain).any isDelimiter

/-- `urlsplit` -/
def urlsplit [Unicode] [BracketedHost] (url : List Char) : Option SplitResult :=
  let url := (url.dropWhile (fun c => c.toNat ≤ 0x20)).filter (· ∉ ['\t', '\r', '\n'])
  let (scheme, rest) := splitScheme url
  let (netloc, rest) := splitNetloc rest
  if bracketsAccepted netloc && checkNetloc netloc then
    let (path, query) := partition '?' (partition '#' rest).1
    some ⟨scheme, netloc, path, query⟩
  else none

/-- The text in front of the last `@`. -/
def userinfo (netloc : List Char) : List Char := (netloc.rdropWhile (· ≠ '@')).dropLast

def username (netloc : List Char) : List Char := (partition ':' (userinfo netloc)).1

def password (netloc : List Char) : List Char := (partition ':' (userinfo netloc)).2

/-- The host and the text of the port. -/
def hostinfo (netloc : List Char) : List Char × List Char :=
  let info := netloc.rtakeWhile (· ≠ '@')
  if '[' ∈ info then
    let (host, rest) := partition ']' (partition '[' info).2
    (host, (partition ':' rest).2)
  else partition ':' info

/-- The host in lower case, its zone as it is written. -/
def hostname [Unicode] (netloc : List Char) : List Char :=
  let host := (hostinfo netloc).1
  let (name, zone) := partition '%' host
  lower name ++ if '%' ∈ host then '%' :: zone else []

def port (netloc : List Char) : Option (Option Nat) :=
  let text := (hostinfo netloc).2
  let number := Nat.ofDigitChars 10 text 0
  if text = [] then some none
  else if text.all Char.isDigit && number ≤ 65535 then some (some number)
  else none

def portText : Option Nat → List Char
  | none => []
  | some number => ':' :: (toString number).toList

def rooted (path : List Char) : List Char :=
  if path ≠ [] ∧ path.head? ≠ some '/' then '/' :: path else path

/-- `urlunsplit` of parts with a scheme and an authority. -/
def urlunsplit (parts : SplitResult) : List Char :=
  let query := if parts.query = [] then [] else '?' :: parts.query
  parts.scheme ++ ':' :: '/' :: '/' :: (parts.netloc ++ (rooted parts.path ++ query))

def canonicalNetloc [Unicode] (netloc : List Char) : Option (List Char) :=
  if hostname netloc = [] ∨ username netloc ≠ [] ∨ password netloc ≠ [] then none
  else (port netloc).map (fun port => fold (hostname netloc) ++ portText port)

def canonicalUrl [Unicode] (split : SplitResult) : Option (List Char) :=
  if split.scheme = [] then none
  else
    (canonicalNetloc split.netloc).map (fun netloc =>
      urlunsplit {
        scheme := fold split.scheme
        netloc := netloc
        path := if split.path = [] then ['/'] else split.path
        query := split.query
      })

/-- `"://"` -/
def urlMark : List Char := [':', '/', '/']

/-- `_canonical_destination` -/
def canonicalDestination [Unicode] [BracketedHost] (value : String) : Option String :=
  let candidate := (strip value).toList
  if candidate = [] ∨ candidate.any isSpace then none
  else if urlMark <:+: candidate then
    ((urlsplit candidate).bind canonicalUrl).map String.ofList
  else some (String.ofList (fold candidate))

----------------------------------------
-- Written URLs
----------------------------------------

/-- The parts of a URL as a canonical destination writes them. -/
structure SplitResult.Written [Unicode] (parts : SplitResult) : Prop where
  alpha : parts.scheme.head?.any Char.isAlpha
  scheme : ∀ c ∈ parts.scheme, c ∈ schemeChars
  folded : fold parts.scheme = parts.scheme
  netloc : ∀ c ∈ parts.netloc, ¬ endsNetloc c
  root : parts.path.head? = some '/'
  path : '#' ∉ parts.path ∧ '?' ∉ parts.path
  query : '#' ∉ parts.query
  solid : ∀ c ∈ parts.netloc ++ (parts.path ++ parts.query), ¬ isSpace c

variable {c : Char}

theorem of_schemeChars (member : c ∈ schemeChars)
    : isAscii c ∧ ¬ isSpace c ∧ ¬ c.toNat ≤ 0x20 ∧ c ≠ ':' ∧ c.toLower ∈ schemeChars
      ∧ c.toLower.isAlpha = c.isAlpha := by
  have each : ∀ c ∈ schemeChars, isAscii c ∧ ¬ isSpace c ∧ ¬ c.toNat ≤ 0x20 ∧ c ≠ ':'
      ∧ c.toLower ∈ schemeChars ∧ c.toLower.isAlpha = c.isAlpha := forall_mem_of_all (by decide)
  exact each c member

namespace SplitResult.Written

variable [Unicode] {parts : SplitResult} (written : parts.Written)
include written

theorem scheme_ne_nil : parts.scheme ≠ [] := by
  intro empty
  have alpha := written.alpha
  rw [empty] at alpha
  cases alpha

theorem urlunsplit_eq
    : urlunsplit parts = parts.scheme ++ ':' :: '/' :: '/' :: (parts.netloc ++ (parts.path
        ++ if parts.query = [] then [] else '?' :: parts.query)) := by
  have root : ¬ (parts.path ≠ [] ∧ parts.path.head? ≠ some '/') :=
    fun rootless => rootless.2 written.root
  rw [urlunsplit, rooted, if_neg root]

/-- Nothing of a written URL is blank. -/
theorem not_isSpace (member : c ∈ urlunsplit parts) : ¬ isSpace c := by
  rw [written.urlunsplit_eq] at member
  have solid := written.solid
  simp only [List.mem_append, List.mem_cons] at member solid
  rcases member with scheme | rfl | rfl | rfl | netloc | path | query
  · exact (of_schemeChars (written.scheme c scheme)).2.1
  · decide
  · decide
  · decide
  · exact solid c (.inl netloc)
  · exact solid c (.inr (.inl path))
  · split at query
    · cases query
    · rcases List.mem_cons.mp query with rfl | query
      · decide
      · exact solid c (.inr (.inr query))

theorem splitScheme
    : splitScheme (urlunsplit parts) = (lower parts.scheme, '/' :: '/' :: (parts.netloc
        ++ (parts.path ++ if parts.query = [] then [] else '?' :: parts.query))) := by
  have free : ':' ∉ parts.scheme := by
    intro member
    exact (of_schemeChars (written.scheme _ member)).2.2.2.1 rfl
  have known : parts.scheme.all (· ∈ schemeChars) :=
    List.all_eq_true.mpr (fun c member => decide_eq_true (written.scheme c member))
  rw [written.urlunsplit_eq, Permissions.splitScheme, partition_append free]
  exact if_pos ⟨by simp, written.alpha, known⟩

/-- Nothing in front of the first character of a written URL is left out, nor within it. -/
theorem cleaned
    : ((urlunsplit parts).dropWhile (fun c => c.toNat ≤ 0x20)).filter (· ∉ ['\t', '\r', '\n'])
      = urlunsplit parts := by
  have lead : (urlunsplit parts).dropWhile (fun c => c.toNat ≤ 0x20) = urlunsplit parts := by
    rw [written.urlunsplit_eq]
    cases scheme : parts.scheme with
    | nil => exact absurd scheme written.scheme_ne_nil
    | cons c later =>
      have first := (of_schemeChars (written.scheme c (scheme ▸ List.mem_cons_self))).2.2.1
      exact List.dropWhile_cons_of_neg (by simpa using first)
  rw [lead]
  refine List.filter_eq_self.mpr (fun c member => decide_eq_true (fun control => ?_))
  have blank : ∀ c ∈ ['\t', '\r', '\n'], isSpace c := forall_mem_of_all (by decide)
  exact written.not_isSpace member (blank c control)

theorem splitNetloc
    : splitNetloc ('/' :: '/' :: (parts.netloc ++ (parts.path
        ++ if parts.query = [] then [] else '?' :: parts.query)))
      = (parts.netloc, parts.path ++ if parts.query = [] then [] else '?' :: parts.query) := by
  have inside : ∀ c ∈ parts.netloc, (! endsNetloc c) = true := by
    intro c member
    simpa using written.netloc c member
  have authority (rest : List Char) : ['/', '/'] <+: '/' :: '/' :: rest := ⟨rest, rfl⟩
  have root := written.root
  cases path : parts.path with
  | nil =>
    rw [path] at root
    cases root
  | cons c rest =>
    rw [path] at root
    cases root
    rw [Permissions.splitNetloc, if_pos (authority _), List.drop_succ_cons, List.drop_one,
      List.tail_cons, List.takeWhile_append_of_pos inside,
      List.dropWhile_append_of_pos inside]
    simp [endsNetloc]

theorem splitQuery
    : partition '?' (partition '#' (parts.path
        ++ if parts.query = [] then [] else '?' :: parts.query)).1
      = (parts.path, parts.query) := by
  have hashless : '#' ∉ parts.path ++ if parts.query = [] then [] else '?' :: parts.query := by
    intro member
    rcases List.mem_append.mp member with path | query
    · exact written.path.1 path
    · split at query
      · cases query
      · rcases List.mem_cons.mp query with same | query
        · cases same
        · exact written.query query
  rw [partition_of_not_mem hashless]
  by_cases empty : parts.query = []
  · rw [if_pos empty, List.append_nil, partition_of_not_mem written.path.2, empty]
  · rw [if_neg empty, partition_append written.path.2]

/-- The parts of a written URL are split again. -/
theorem urlsplit [BracketedHost]
    : urlsplit (urlunsplit parts)
      = if bracketsAccepted parts.netloc && checkNetloc parts.netloc then
          some { parts with scheme := lower parts.scheme }
        else none := by
  unfold Permissions.urlsplit
  rw [written.cleaned]
  simp only [written.splitScheme, written.splitNetloc, written.splitQuery]

theorem canonicalUrl [BracketedHost]
    : (Permissions.urlsplit (urlunsplit parts)).bind canonicalUrl
      = if bracketsAccepted parts.netloc && checkNetloc parts.netloc then
          (canonicalNetloc parts.netloc).map (fun netloc =>
            urlunsplit { parts with netloc := netloc })
        else none := by
  have named : lower parts.scheme ≠ [] := fun empty =>
    written.scheme_ne_nil (lower_eq_nil.mp empty)
  have rooted : parts.path ≠ [] := by
    intro empty
    have root := written.root
    rw [empty] at root
    cases root
  rw [written.urlsplit]
  split
  · rw [Option.bind_some, Permissions.canonicalUrl, if_neg named]
    simp only [if_neg rooted, fold_lower, written.folded]
  · rfl

end SplitResult.Written

----------------------------------------
-- Written authorities
----------------------------------------

/-- The host and the port of an authority are read back from it: no bracket and no colon is
left in it but the one in front of a port.
-/
def ReadableNetloc (netloc : List Char) : Prop :=
  '[' ∉ netloc ∧ ']' ∉ netloc
    ∧ (':' ∉ netloc ∨ ∃ host number, netloc = host ++ portText (some number) ∧ host ≠ []
      ∧ ':' ∉ host ∧ number ≤ 65535)

theorem portText_some (number : Nat) : portText (some number) = ':' :: Nat.toDigits 10 number := by
  rw [portText, Nat.toString_eq_repr, Nat.toList_repr]

theorem mem_portText {port : Option Nat} (member : c ∈ portText port)
    : c = ':' ∨ c.isDigit := by
  cases port with
  | none => cases member
  | some number =>
    rw [portText_some] at member
    rcases List.mem_cons.mp member with same | digit
    · exact .inl same
    · exact .inr (Nat.isDigit_of_mem_toDigits (by decide) (by decide) digit)

theorem isAscii_isDigit (digit : c.isDigit) : isAscii c := by
  have bound : c.val ≤ 57 := by
    simp only [Char.isDigit, Bool.and_eq_true, decide_eq_true_eq] at digit
    exact digit.2
  have small : c.toNat ≤ 57 := UInt32.le_iff_toNat_le.mp bound
  exact decide_eq_true (by omega)

theorem fold_hostname [Unicode] (netloc : List Char)
    : fold (hostname netloc) = fold (hostinfo netloc).1 := by
  unfold hostname
  rw [fold_append, fold_lower, ← fold_append]
  by_cases zoned : '%' ∈ (hostinfo netloc).1
  · rw [if_pos zoned, ← partition_parts zoned]
  · rw [if_neg zoned, List.append_nil, partition_of_not_mem zoned]

theorem hostname_eq_nil [Unicode] {netloc : List Char}
    : hostname netloc = [] ↔ (hostinfo netloc).1 = [] := by
  rw [← fold_eq_nil, fold_hostname, fold_eq_nil]

theorem userinfo_eq_nil {netloc : List Char} (anonymous : '@' ∉ netloc) : userinfo netloc = [] := by
  have all : ∀ c ∈ netloc, decide (c ≠ '@') = true :=
    fun c member => decide_eq_true (fun same => anonymous (same ▸ member))
  rw [userinfo, List.rdropWhile_eq_nil_iff.mpr all]
  rfl

theorem hostinfo_of_anonymous {netloc : List Char} (anonymous : '@' ∉ netloc)
    (bare : '[' ∉ netloc)
    : hostinfo netloc = partition ':' netloc := by
  have all : ∀ c ∈ netloc, decide (c ≠ '@') = true :=
    fun c member => decide_eq_true (fun same => anonymous (same ▸ member))
  unfold hostinfo
  rw [List.rtakeWhile_eq_self_iff.mpr all]
  exact if_neg bare

/-- A host in brackets is written without the closing one. -/
theorem not_mem_hostinfo {netloc : List Char} (anonymous : '@' ∉ netloc)
    (bracketed : '[' ∈ netloc)
    : ']' ∉ (hostinfo netloc).1 := by
  have all : ∀ c ∈ netloc, decide (c ≠ '@') = true :=
    fun c member => decide_eq_true (fun same => anonymous (same ▸ member))
  unfold hostinfo
  rw [List.rtakeWhile_eq_self_iff.mpr all]
  simp only [if_pos bracketed]
  exact not_mem_partition _

theorem canonicalNetloc_of_anonymous [Unicode] {netloc : List Char} (anonymous : '@' ∉ netloc)
    : canonicalNetloc netloc = if (hostinfo netloc).1 = [] then none
        else (port netloc).map (fun port => fold (hostinfo netloc).1 ++ portText port) := by
  have user : username netloc = [] := by rw [username, userinfo_eq_nil anonymous]; rfl
  have secret : password netloc = [] := by rw [password, userinfo_eq_nil anonymous]; rfl
  unfold canonicalNetloc
  rw [user, secret, fold_hostname]
  simp [hostname_eq_nil]

section
variable [Unicode] {netloc : List Char} (anonymous : '@' ∉ netloc)
  (folded : fold netloc = netloc)
include anonymous

theorem canonicalNetloc_bracketed (opened : '[' ∈ netloc) (closed : ']' ∈ netloc)
    : canonicalNetloc netloc ≠ some netloc := by
  intro again
  rw [canonicalNetloc_of_anonymous anonymous] at again
  split at again
  · cases again
  · obtain ⟨port, _, same⟩ := Option.map_eq_some_iff.mp again
    rw [← same] at closed
    rcases List.mem_append.mp closed with host | port
    · exact not_mem_hostinfo anonymous opened (mem_fold host (.inr (by decide)))
    · rcases mem_portText port with colon | digit
      · cases colon
      · exact absurd digit (by decide)

include folded

/-- A host that is not followed by a port is kept. -/
theorem canonicalNetloc_host (some_ : netloc ≠ []) (bare : '[' ∉ netloc) (colonless : ':' ∉ netloc)
    : canonicalNetloc netloc = some netloc := by
  have parts := hostinfo_of_anonymous anonymous bare
  rw [partition_of_not_mem colonless] at parts
  rw [canonicalNetloc_of_anonymous anonymous, port, parts, if_neg some_, if_pos rfl, folded]
  simp [portText]

/-- What follows a host has to be a port, written as the port's number is. -/
theorem canonicalNetloc_port (bare : '[' ∉ netloc) (colon : ':' ∈ netloc)
    : canonicalNetloc netloc = some netloc ↔ ∃ host number,
        netloc = host ++ portText (some number) ∧ host ≠ [] ∧ ':' ∉ host ∧ number ≤ 65535 := by
  obtain ⟨host, text, rfl, free⟩ := List.eq_append_cons_of_mem colon
  have parts := hostinfo_of_anonymous anonymous bare
  rw [partition_append free] at parts
  have kept : fold host = host := by
    have colons : casefold ':' = [':'] := Unicode.casefold_ascii rfl
    have cut := congrArg (partition ':') folded
    have free' : ':' ∉ fold host := fun member => free (mem_fold member (.inr (by decide)))
    have behind : fold (':' :: text) = ':' :: fold text := by
      rw [fold, List.flatMap_cons, colons]
      rfl
    rw [fold_append, behind, partition_append free', partition_append free] at cut
    exact (Prod.mk.inj cut).1
  rw [canonicalNetloc_of_anonymous anonymous, parts, kept]
  constructor
  · intro again
    by_cases empty : host = []
    · rw [if_pos empty] at again
      cases again
    · rw [if_neg empty] at again
      obtain ⟨number?, read, same⟩ := Option.map_eq_some_iff.mp again
      have written := List.append_cancel_left same
      cases number? with
      | none => cases written
      | some number =>
        refine ⟨host, number, same.symm, empty, free, ?_⟩
        rw [port, parts] at read
        split at read
        · cases read
        · split at read
          · next bounded =>
            cases read
            simp only [Bool.and_eq_true, decide_eq_true_eq] at bounded
            exact bounded.2
          · cases read
  · intro readable
    obtain ⟨host', number, same, nonempty, free', bounded⟩ := readable
    rw [portText_some] at same
    have cut := congrArg (partition ':') same
    rw [partition_append free, partition_append free'] at cut
    obtain ⟨rfl, rfl⟩ := Prod.mk.inj cut
    have digits : (Nat.toDigits 10 number).all Char.isDigit = true :=
      List.all_eq_true.mpr (fun c => Nat.isDigit_of_mem_toDigits (by decide) (by decide))
    rw [if_neg nonempty, port, parts, if_neg Nat.toDigits_ne_nil, Nat.ofDigitChars_ten_toDigits,
      digits, decide_eq_true bounded]
    exact congrArg some (congrArg (host ++ ·) (portText_some number))

end

/-- An authority that is written again is the same exactly if it is readable. -/
theorem canonicalNetloc_again [Unicode] [BracketedHost] {netloc : List Char} (some_ : netloc ≠ [])
    (anonymous : '@' ∉ netloc) (folded : fold netloc = netloc) (checked : checkNetloc netloc)
    : (if bracketsAccepted netloc && checkNetloc netloc then canonicalNetloc netloc else none)
        = some netloc
      ↔ ReadableNetloc netloc := by
  rw [checked, Bool.and_true]
  by_cases opened : '[' ∈ netloc
  · refine iff_of_false (fun again => ?_) (fun readable => readable.1 opened)
    split at again
    · next accepted =>
      by_cases closed : ']' ∈ netloc
      · exact canonicalNetloc_bracketed anonymous opened closed again
      · simp [bracketsAccepted, opened, closed] at accepted
    · cases again
  · by_cases closed : ']' ∈ netloc
    · refine iff_of_false (fun again => ?_) (fun readable => readable.2.1 closed)
      simp [bracketsAccepted, opened, closed] at again
    · have accepted : bracketsAccepted netloc = true := by simp [bracketsAccepted, opened, closed]
      rw [if_pos accepted]
      by_cases colon : ':' ∈ netloc
      · rw [canonicalNetloc_port anonymous folded opened colon]
        simp [ReadableNetloc, opened, closed, colon]
      · exact iff_of_true (canonicalNetloc_host anonymous folded some_ opened colon)
          ⟨opened, closed, .inl colon⟩

----------------------------------------
-- The authority that is written
----------------------------------------

theorem mem_hostinfo {netloc : List Char} (member : c ∈ (hostinfo netloc).1)
    : c ∈ netloc ∧ c ≠ '@' := by
  have inside : c ∈ netloc.rtakeWhile (· ≠ '@') := by
    by_cases bracketed : '[' ∈ netloc.rtakeWhile (· ≠ '@')
    · simp only [hostinfo, if_pos bracketed] at member
      exact mem_partition (.inr (mem_partition (.inl member)))
    · simp only [hostinfo, if_neg bracketed] at member
      exact mem_partition (.inl member)
  have other := List.mem_rtakeWhile_imp inside
  exact ⟨(List.rtakeWhile_suffix _ _).subset inside, of_decide_eq_true other⟩

variable {canonical url : List Char} {destination : String}

section
variable [Unicode]

theorem not_mem_nfkc {netloc : List Char} (checked : checkNetloc netloc) (slashless : '/' ∉ netloc)
    {d : Char} (member : c ∈ netloc) (plain : c ∉ ['@', ':', '#', '?']) (delimiter : isDelimiter d)
    : d ∉ nfkc [c] := by
  intro decomposed
  have kept : c ∈ netloc.filter (· ∉ ['@', ':', '#', '?']) :=
    List.mem_filter.mpr ⟨member, decide_eq_true plain⟩
  have whole := (Unicode.nfkc_delimiter delimiter).mpr ⟨c, kept, decomposed⟩
  have foreign : ∀ e ∈ netloc, e ∉ ['@', ':', '#', '?'] → ¬ isDelimiter e := by
    intro e inside other among
    have slash : e ≠ '/' := fun same => slashless (same ▸ inside)
    simp [isDelimiter] at among other
    tauto
  simp only [checkNetloc, Bool.or_eq_true, decide_eq_true_eq, Bool.not_eq_true'] at checked
  rcases checked with known | unseen
  · rcases known with ascii | same
    · have own := Unicode.nfkc_ascii (List.all_eq_true.mp ascii c member)
      rw [own, List.mem_singleton] at decomposed
      exact foreign c member plain (decomposed ▸ delimiter)
    · rw [same] at whole
      obtain ⟨inside, other⟩ := List.mem_filter.mp whole
      exact foreign d inside (of_decide_eq_true other) delimiter
  · exact List.any_eq_false.mp unseen d whole delimiter

theorem checkNetloc_of {netloc : List Char}
    (plain : ∀ c ∈ netloc, c ∉ ['@', ':', '#', '?'] → ∀ d, isDelimiter d → d ∉ nfkc [c])
    : checkNetloc netloc := by
  have unseen : (nfkc (netloc.filter (· ∉ ['@', ':', '#', '?']))).any isDelimiter = false := by
    refine List.any_eq_false.mpr (fun d member delimiter => ?_)
    obtain ⟨c, kept, decomposed⟩ := (Unicode.nfkc_delimiter delimiter).mp member
    obtain ⟨inside, other⟩ := List.mem_filter.mp kept
    exact plain c inside (of_decide_eq_true other) d delimiter decomposed
  rw [checkNetloc, unseen]
  simp

omit [Unicode] in
theorem isSpace_isDigit (digit : c.isDigit) : ¬ isSpace c := by
  have each : ∀ code < 128, (Char.ofNat code).isDigit → ¬ isSpace (Char.ofNat code) := by decide
  exact @forall_ascii (fun c => c.isDigit → ¬ isSpace c) each c (isAscii_isDigit digit) digit

omit [Unicode] in
theorem toLower_isDigit (digit : c.isDigit) : c.toLower = c := by
  have each : ∀ code < 128, (Char.ofNat code).isDigit
      → (Char.ofNat code).toLower = Char.ofNat code := by decide
  exact @forall_ascii (fun c => c.isDigit → c.toLower = c) each c (isAscii_isDigit digit) digit

theorem fold_portText (port : Option Nat) : fold (portText port) = portText port := by
  have ascii : ∀ c ∈ portText port, isAscii c := by
    intro c member
    rcases mem_portText member with rfl | digit
    · rfl
    · exact isAscii_isDigit digit
  have same : (portText port).map Char.toLower = (portText port).map id := by
    refine List.map_congr_left (fun c member => ?_)
    rcases mem_portText member with rfl | digit
    · rfl
    · exact toLower_isDigit digit
  rw [fold_ascii ascii, same, List.map_id]

/-- The characters of a written authority: those of a port, and of the folded host. -/
theorem mem_canonicalNetloc {netloc : List Char}
    (written : canonicalNetloc netloc = some canonical) (member : c ∈ canonical)
    : c = ':' ∨ c.isDigit ∨ ∃ d ∈ netloc, d ≠ '@' ∧ c ∈ casefold d := by
  unfold canonicalNetloc at written
  split at written
  · cases written
  · obtain ⟨port, _, same⟩ := Option.map_eq_some_iff.mp written
    rw [← same, fold_hostname] at member
    rcases List.mem_append.mp member with host | port
    · obtain ⟨d, inside, folds⟩ := List.mem_flatMap.mp host
      exact .inr (.inr ⟨d, (mem_hostinfo inside).1, (mem_hostinfo inside).2, folds⟩)
    · rcases mem_portText port with colon | digit
      · exact .inl colon
      · exact .inr (.inl digit)

/-- A character that only folds to itself was part of the authority. -/
theorem mem_of_mem_canonicalNetloc {netloc : List Char}
    (written : canonicalNetloc netloc = some canonical) (member : c ∈ canonical)
    (other : c ≠ ':' ∧ ¬ c.isDigit) (plain : isSpace c ∨ isAscii c ∧ ¬ c.isLower)
    : c ∈ netloc ∧ c ≠ '@' := by
  rcases mem_canonicalNetloc written member with colon | digit | folded
  · exact absurd colon other.1
  · exact absurd digit other.2
  · obtain ⟨d, inside, named, folds⟩ := folded
    rw [Unicode.casefold_plain folds plain]
    exact ⟨inside, named⟩

theorem canonicalNetloc_folded {netloc : List Char}
    (written : canonicalNetloc netloc = some canonical)
    : canonical ≠ [] ∧ fold canonical = canonical := by
  unfold canonicalNetloc at written
  by_cases refused : hostname netloc = [] ∨ username netloc ≠ [] ∨ password netloc ≠ []
  · rw [if_pos refused] at written
    cases written
  · rw [if_neg refused] at written
    obtain ⟨port, _, same⟩ := Option.map_eq_some_iff.mp written
    rw [← same]
    refine ⟨fun empty => refused (.inl ?_), ?_⟩
    · exact fold_eq_nil.mp (List.append_eq_nil_iff.mp empty).1
    · rw [fold_append, fold_fold, fold_portText]

/-- A written authority decomposes to no delimiter, as the authority it was read from. -/
theorem checkNetloc_canonical {netloc : List Char}
    (written : canonicalNetloc netloc = some canonical) (checked : checkNetloc netloc)
    (slashless : '/' ∉ netloc)
    : checkNetloc canonical := by
  refine checkNetloc_of (fun c member plain d delimiter decomposed => ?_)
  rcases mem_canonicalNetloc written member with rfl | digit | folded
  · exact plain (by decide)
  · rw [Unicode.nfkc_ascii (isAscii_isDigit digit), List.mem_singleton] at decomposed
    subst decomposed
    have each : ∀ e ∈ ['/', '?', '#', '@', ':'], ¬ e.isDigit := forall_mem_of_all (by decide)
    exact each d (of_decide_eq_true delimiter) digit
  · obtain ⟨e, inside, _, folds⟩ := folded
    have among : e ∉ ['@', ':', '#', '?'] := by
      intro among
      have each : ∀ e ∈ ['@', ':', '#', '?'], isAscii e ∧ e.toLower = e :=
        forall_mem_of_all (by decide)
      rw [Unicode.casefold_ascii (each e among).1, (each e among).2, List.mem_singleton] at folds
      exact plain (folds ▸ among)
    exact not_mem_nfkc checked slashless inside among delimiter
      (Unicode.nfkc_casefold delimiter folds decomposed)

----------------------------------------
-- The URL that is written
----------------------------------------

/-- The parts of a URL that was split with its scheme. -/
structure SplitResult.Read (split : SplitResult) : Prop where
  scheme : ∃ scheme, split.scheme = lower scheme ∧ scheme.head?.any Char.isAlpha
    ∧ ∀ c ∈ scheme, c ∈ schemeChars
  netloc : ∀ c ∈ split.netloc, ¬ endsNetloc c
  checked : checkNetloc split.netloc
  path : '#' ∉ split.path ∧ '?' ∉ split.path
  query : '#' ∉ split.query
  solid : ∀ c ∈ split.netloc ++ (split.path ++ split.query), ¬ isSpace c

theorem splitScheme_named (named : (splitScheme url).1 ≠ [])
    : ∃ scheme, (splitScheme url).1 = lower scheme ∧ scheme.head?.any Char.isAlpha
      ∧ ∀ c ∈ scheme, c ∈ schemeChars := by
  unfold splitScheme at named ⊢
  by_cases holds : ':' ∈ url ∧ (partition ':' url).1.head?.any Char.isAlpha
      ∧ (partition ':' url).1.all (· ∈ schemeChars)
  · simp only [if_pos holds]
    exact ⟨_, rfl, holds.2.1,
      fun c member => of_decide_eq_true (List.all_eq_true.mp holds.2.2 c member)⟩
  · simp only [if_neg holds, ne_eq, not_true_eq_false] at named

theorem mem_splitScheme (member : c ∈ (splitScheme url).2)
    : c ∈ url := by
  unfold splitScheme at member
  by_cases holds : ':' ∈ url ∧ (partition ':' url).1.head?.any Char.isAlpha
      ∧ (partition ':' url).1.all (· ∈ schemeChars)
  · simp only [if_pos holds] at member
    exact mem_partition (.inr member)
  · simp only [if_neg holds] at member
    exact member

omit [Unicode] in
theorem mem_splitNetloc (member : c ∈ (splitNetloc url).1 ∨ c ∈ (splitNetloc url).2)
    : c ∈ url := by
  unfold splitNetloc at member
  split at member
  · rcases member with front | behind
    · exact List.mem_of_mem_drop ((List.takeWhile_sublist _).subset front)
    · exact List.mem_of_mem_drop ((List.dropWhile_sublist _).subset behind)
  · rcases member with front | behind
    · cases front
    · exact behind

omit [Unicode] in
theorem not_endsNetloc (member : c ∈ (splitNetloc url).1)
    : ¬ endsNetloc c := by
  unfold splitNetloc at member
  split at member
  · simpa using List.mem_takeWhile_imp member
  · cases member

theorem urlsplit_eq_some [BracketedHost] {candidate : List Char} {split : SplitResult}
    (read : urlsplit candidate = some split) (named : split.scheme ≠ [])
    (solid : ∀ c ∈ candidate, ¬ isSpace c)
    : split.Read := by
  unfold urlsplit at read
  generalize clean : (candidate.dropWhile (fun c => c.toNat ≤ 0x20)).filter
    (· ∉ ['\t', '\r', '\n']) = url at read
  have kept : ∀ c ∈ url, ¬ isSpace c := by
    intro c member
    rw [← clean] at member
    exact solid c ((List.dropWhile_sublist _).subset (List.mem_filter.mp member).1)
  simp only at read
  by_cases accepted : (bracketsAccepted (splitNetloc (splitScheme url).2).1
      && checkNetloc (splitNetloc (splitScheme url).2).1) = true
  · rw [if_pos accepted] at read
    rw [← Option.some.inj read] at named ⊢
    have authority {c : Char} (member : c ∈ (splitNetloc (splitScheme url).2).1
        ∨ c ∈ (splitNetloc (splitScheme url).2).2)
        : ¬ isSpace c :=
      kept c (mem_splitScheme (mem_splitNetloc member))
    refine ⟨splitScheme_named named, fun c => not_endsNetloc, (Bool.and_eq_true_iff.mp accepted).2,
      ⟨fun hash => ?_, not_mem_partition _⟩, fun hash => ?_, fun c member => ?_⟩
    · exact not_mem_partition _ (mem_partition (.inl hash))
    · exact not_mem_partition _ (mem_partition (.inr hash))
    · rcases List.mem_append.mp member with netloc | behind
      · exact authority (.inl netloc)
      · have rest := mem_partition (List.mem_append.mp behind)
        exact authority (.inr (mem_partition (.inl rest)))
  · rw [if_neg accepted] at read
    cases read

omit [Unicode] in
theorem mem_rooted {path : List Char} (member : c ∈ rooted path)
    : c = '/' ∨ c ∈ path := by
  unfold rooted at member
  split at member
  · exact List.mem_cons.mp member
  · exact .inr member

omit [Unicode] in
theorem head?_rooted {path : List Char} (some_ : path ≠ []) : (rooted path).head? = some '/' := by
  unfold rooted
  split
  · rfl
  · next root => exact not_not.mp (fun other => root ⟨some_, other⟩)

omit [Unicode] in
theorem rooted_rooted (path : List Char) : rooted (rooted path) = rooted path := by
  by_cases empty : path = []
  · rw [empty]
    rfl
  · exact if_neg (fun rootless => rootless.2 (head?_rooted empty))

/-- The scheme of a canonical URL. -/
theorem folded_scheme {scheme : List Char} (alpha : scheme.head?.any Char.isAlpha)
    (known : ∀ c ∈ scheme, c ∈ schemeChars)
    : (fold scheme).head?.any Char.isAlpha ∧ ∀ c ∈ fold scheme, c ∈ schemeChars := by
  rw [fold_ascii (fun c member => (of_schemeChars (known c member)).1)]
  constructor
  · cases scheme with
    | nil => cases alpha
    | cons c later =>
      have same := (of_schemeChars (known c List.mem_cons_self)).2.2.2.2.2
      simpa [same] using alpha
  · intro c member
    obtain ⟨d, inside, rfl⟩ := List.mem_map.mp member
    exact (of_schemeChars (known d inside)).2.2.2.2.1

theorem canonicalUrl_eq_some {split : SplitResult} (read : split.Read)
    (canonical : canonicalUrl split = some url)
    : ∃ parts : SplitResult, parts.Written ∧ url = urlunsplit parts
      ∧ parts.netloc ≠ [] ∧ '@' ∉ parts.netloc ∧ fold parts.netloc = parts.netloc
      ∧ checkNetloc parts.netloc := by
  obtain ⟨scheme, lowered, alpha, known⟩ := read.scheme
  unfold canonicalUrl at canonical
  split at canonical
  · cases canonical
  · obtain ⟨netloc, written, rfl⟩ := Option.map_eq_some_iff.mp canonical
    have own {c : Char} (member : c ∈ netloc) (other : c ≠ ':' ∧ ¬ c.isDigit)
        (plain : isSpace c ∨ isAscii c ∧ ¬ c.isLower) :=
      mem_of_mem_canonicalNetloc written member other plain
    have slashless : '/' ∉ split.netloc := fun member => read.netloc _ member rfl
    have folding := canonicalNetloc_folded written
    refine ⟨⟨fold split.scheme, netloc,
      rooted (if split.path = [] then ['/'] else split.path), split.query⟩, ?_, ?_, folding.1,
      fun member => (own member (by decide) (.inr (by decide))).2 rfl, folding.2,
      checkNetloc_canonical written read.checked slashless⟩
    · have within {c : Char} (member : c ∈ rooted (if split.path = [] then ['/'] else split.path))
          : c = '/' ∨ c ∈ split.path := by
        rcases mem_rooted member with slash | inside
        · exact .inl slash
        · split at inside
          · exact .inl (List.mem_singleton.mp inside)
          · exact .inr inside
      have schemes := folded_scheme alpha known
      rw [← fold_lower, ← lowered] at schemes
      refine ⟨schemes.1, schemes.2, fold_fold _, fun c member ends => ?_, ?_,
        ⟨fun hash => ?_, fun mark => ?_⟩, read.query, fun c member blank => ?_⟩
      · have plain : ∀ d ∈ ['/', '?', '#'], d ≠ ':' ∧ ¬ d.isDigit ∧ isAscii d ∧ ¬ d.isLower :=
          forall_mem_of_all (by decide)
        have among : c ∈ ['/', '?', '#'] := by simpa [endsNetloc, or_assoc] using ends
        obtain ⟨colon, digit, ascii, small⟩ := plain c among
        exact read.netloc c (own member ⟨colon, digit⟩ (.inr ⟨ascii, small⟩)).1 ends
      · refine head?_rooted ?_
        split
        · exact List.cons_ne_nil _ _
        · next some_ => exact some_
      · rcases within hash with same | inside
        · cases same
        · exact read.path.1 inside
      · rcases within mark with same | inside
        · cases same
        · exact read.path.2 inside
      · have solid := read.solid c
        simp only [List.mem_append] at member solid
        rcases member with inside | inside | inside
        · have other : c ≠ ':' ∧ ¬ c.isDigit := by
            refine ⟨fun colon => ?_, fun digit => ?_⟩
            · subst colon
              exact absurd blank (by decide)
            · exact isSpace_isDigit digit blank
          exact solid (.inl (own inside other (.inl blank)).1) blank
        · rcases within inside with same | inside
          · subst same
            exact absurd blank (by decide)
          · exact solid (.inr (.inl inside)) blank
        · exact solid (.inr (.inr inside)) blank
    · rw [urlunsplit, urlunsplit, rooted_rooted]

----------------------------------------
-- Canonical destinations
----------------------------------------

/-- A character that folds to itself, and that nothing else folds to, is found where it was
before folding.
-/
theorem fold_eq_append_cons {text front behind : List Char} {d : Char}
    (plain : isAscii d ∧ ¬ d.isLower ∧ d.toLower = d) (same : fold text = front ++ d :: behind)
    : ∃ front' behind', text = front' ++ d :: behind' ∧ fold front' = front
      ∧ fold behind' = behind := by
  induction text generalizing front with
  | nil => simp [fold] at same
  | cons c text ih =>
    have cut : casefold c ++ fold text = front ++ d :: behind := same
    rcases List.append_eq_append_iff.mp cut with later | here
    · obtain ⟨rest, whole, same⟩ := later
      obtain ⟨front', behind', text', folds, behinds⟩ := ih same
      refine ⟨c :: front', behind', by rw [text']; rfl, ?_, behinds⟩
      rw [whole, ← folds]
      rfl
    · obtain ⟨rest, whole, same⟩ := here
      cases rest with
      | nil =>
        rw [List.nil_append] at same
        obtain ⟨front', behind', text', folds, behinds⟩ := @ih [] same.symm
        refine ⟨c :: front', behind', by rw [text']; rfl, ?_, behinds⟩
        have front'' := fold_eq_nil.mp folds
        rw [front'', ← List.append_nil front, ← whole]
        simp [fold]
      | cons e rest =>
        rw [List.cons_append] at same
        obtain ⟨rfl, behinds⟩ := List.cons_eq_cons.mp same
        have own : d = c :=
          Unicode.casefold_plain (whole ▸ by simp) (.inr ⟨plain.1, plain.2.1⟩)
        subst own
        rw [Unicode.casefold_ascii plain.1, plain.2.2] at whole
        cases front with
        | nil =>
          have empty : rest = [] := by simpa using whole
          exact ⟨[], text, rfl, rfl, by rw [behinds, empty]; rfl⟩
        | cons first front =>
          have short := congrArg List.length whole
          simp at short

theorem infix_of_fold {text : List Char} (url : urlMark <:+: fold text)
    : urlMark <:+: text := by
  obtain ⟨front, behind, same⟩ := url
  have whole : fold text = front ++ ':' :: '/' :: '/' :: behind := by
    rw [← same]
    simp [urlMark]
  obtain ⟨front', rest, rfl, _, rest'⟩ := fold_eq_append_cons (by decide) whole
  obtain ⟨none₁, rest₁, rfl, empty₁, rest₁'⟩ :=
    @fold_eq_append_cons _ _ [] _ _ (by decide) rest'
  obtain ⟨none₂, rest₂, rfl, empty₂, _⟩ :=
    @fold_eq_append_cons _ _ [] _ _ (by decide) rest₁'
  rw [fold_eq_nil.mp empty₁, fold_eq_nil.mp empty₂]
  exact ⟨front', rest₂, by simp [urlMark]⟩

def netlocOf (url : List Char) : List Char := (splitNetloc (splitScheme url).2).1

/-- The authority of a destination that is a URL is read back as it is written. -/
def ReadableDestination (destination : String) : Prop :=
  urlMark <:+: destination.toList → ReadableNetloc (netlocOf destination.toList)

/-- Without whitespace, a destination is its own candidate. -/
theorem canonicalDestination_solid [BracketedHost]
    (some_ : destination.toList ≠ []) (solid : ∀ c ∈ destination.toList, ¬ isSpace c)
    : canonicalDestination destination
      = if urlMark <:+: destination.toList then
          ((urlsplit destination.toList).bind canonicalUrl).map String.ofList
        else some (String.ofList (fold destination.toList)) := by
  have stripped : (strip destination).toList = destination.toList := by
    rw [toList_strip, trim_of_none solid]
  have accepted : ¬ (destination.toList = [] ∨ destination.toList.any isSpace) := by
    intro refused
    rcases refused with empty | blank
    · exact some_ empty
    · obtain ⟨c, member, space⟩ := List.any_eq_true.mp blank
      exact solid c member space
  unfold canonicalDestination
  simp only [stripped, if_neg accepted]

omit [Unicode] in
/-- A written URL differs from another one with the same other parts in its authority only. -/
theorem urlunsplit_inj {parts : SplitResult} {netloc : List Char}
    : urlunsplit { parts with netloc := netloc } = urlunsplit parts ↔ netloc = parts.netloc := by
  simp [urlunsplit]

theorem SplitResult.Written.again [BracketedHost] {parts : SplitResult} (written : parts.Written)
    (some_ : parts.netloc ≠ []) (anonymous : '@' ∉ parts.netloc)
    (folded : fold parts.netloc = parts.netloc) (checked : checkNetloc parts.netloc)
    : canonicalDestination (String.ofList (urlunsplit parts))
        = some (String.ofList (urlunsplit parts))
      ↔ ReadableDestination (String.ofList (urlunsplit parts)) := by
  have solid : ∀ c ∈ (String.ofList (urlunsplit parts)).toList, ¬ isSpace c := by
    intro c member
    rw [String.toList_ofList] at member
    exact written.not_isSpace member
  have url : urlMark <:+: urlunsplit parts := by
    rw [written.urlunsplit_eq]
    exact ⟨parts.scheme, _, by simp [urlMark]; rfl⟩
  have nonempty : urlunsplit parts ≠ [] := by
    intro empty
    rw [empty] at url
    exact absurd (List.infix_nil.mp url) (by decide)
  have authority : netlocOf (urlunsplit parts) = parts.netloc := by
    rw [netlocOf, written.splitScheme, written.splitNetloc]
  rw [canonicalDestination_solid (by rwa [String.toList_ofList]) solid, ReadableDestination,
    String.toList_ofList, if_pos url, written.canonicalUrl, authority,
    ← canonicalNetloc_again some_ anonymous folded checked]
  have inner : ∀ netloc? : Option (List Char),
      (netloc?.map (fun netloc => urlunsplit { parts with netloc := netloc })).map String.ofList
        = some (String.ofList (urlunsplit parts)) ↔ netloc? = some parts.netloc := by
    intro netloc?
    cases netloc? with
    | none => simp
    | some netloc =>
      simp only [Option.map_some, Option.some.injEq, String.ofList_inj]
      exact urlunsplit_inj
  split
  · rw [inner]
    exact ⟨fun again _ => again, fun again => again url⟩
  · simp [url]

/-- A canonical destination is its own canonical form exactly if its authority is read back. -/
theorem canonicalDestination_again [BracketedHost] {value : String}
    (canonical : canonicalDestination value = some destination)
    : canonicalDestination destination = some destination ↔ ReadableDestination destination := by
  unfold canonicalDestination at canonical
  by_cases refused : (strip value).toList = [] ∨ (strip value).toList.any isSpace
  · simp only [if_pos refused] at canonical
    cases canonical
  · simp only [if_neg refused] at canonical
    obtain ⟨some_, blank⟩ := not_or.mp refused
    have solid : ∀ c ∈ (strip value).toList, ¬ isSpace c :=
      fun c member space => blank (List.any_eq_true.mpr ⟨c, member, space⟩)
    by_cases url : urlMark <:+: (strip value).toList
    · rw [if_pos url] at canonical
      obtain ⟨text, read, rfl⟩ := Option.map_eq_some_iff.mp canonical
      obtain ⟨split, splits, read⟩ := Option.bind_eq_some_iff.mp read
      have named : split.scheme ≠ [] := by
        intro empty
        rw [canonicalUrl, if_pos empty] at read
        cases read
      obtain ⟨parts, written, rfl, nonempty, anonymous, folded, checked⟩ :=
        canonicalUrl_eq_some (urlsplit_eq_some splits named solid) read
      exact written.again nonempty anonymous folded checked
    · rw [if_neg url] at canonical
      rw [← Option.some.inj canonical]
      have plain : ¬ urlMark <:+: fold (strip value).toList :=
        fun found => url (infix_of_fold found)
      have bare : ∀ c ∈ (String.ofList (fold (strip value).toList)).toList, ¬ isSpace c := by
        intro c member space
        rw [String.toList_ofList] at member
        exact solid c (mem_fold member (.inl space)) space
      rw [canonicalDestination_solid (by simpa using some_) bare, ReadableDestination,
        String.toList_ofList, if_neg plain, fold_fold]
      simp [plain]

theorem canonicalDestination_ne_empty [BracketedHost] {value : String}
    (canonical : canonicalDestination value = some destination)
    : destination ≠ "" := by
  intro empty
  subst empty
  unfold canonicalDestination at canonical
  by_cases refused : (strip value).toList = [] ∨ (strip value).toList.any isSpace
  · simp only [if_pos refused] at canonical
    cases canonical
  · simp only [if_neg refused] at canonical
    split at canonical
    · obtain ⟨text, read, same⟩ := Option.map_eq_some_iff.mp canonical
      obtain ⟨split, _, read⟩ := Option.bind_eq_some_iff.mp read
      unfold canonicalUrl at read
      by_cases unnamed : split.scheme = []
      · rw [if_pos unnamed] at read
        cases read
      · rw [if_neg unnamed] at read
        obtain ⟨netloc, _, rfl⟩ := Option.map_eq_some_iff.mp read
        have letters := congrArg String.toList same
        simp [urlunsplit] at letters
    · have letters := congrArg String.toList (Option.some.inj canonical)
      rw [String.toList_ofList] at letters
      exact refused (.inl (fold_eq_nil.mp letters))

end

end Murder.Permissions
