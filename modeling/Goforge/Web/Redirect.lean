import Goforge.Lib.GoPath

set_option autoImplicit false

namespace Goforge.Web

open GoString GoPath

def question : UInt8 := byte '?'

def pathPart (location : Bytes) : Bytes := location.takeWhile (· ≠ question)

def queryPart (location : Bytes) : Bytes := location.dropWhile (· ≠ question)

-- url.unescape has no error: two hexadecimal digits follow every percent sign.
def validEscapes : Bytes → Bool
  | [] => true
  | b :: rest =>
    (b ≠ byte '%' || (rest.take 2).length = 2 && (rest.take 2).all (fun digit => (hexValue digit).isSome)) &&
      validEscapes rest

-- url.ParseRequestURI of a text that begins with a slash. There is no scheme in
-- it, and no host is looked for without one.
def parseRequestURI (location : Bytes) : Bool :=
  !location.any (fun b => b < 0x20 || b = 0x7F) && validEscapes (pathPart location)

-- url.Parse of a text that begins with one slash, as far as it can fail after
-- ParseRequestURI has not: the fragment is split off before the query.
def parseURL (location : Bytes) : Bool :=
  let beforeFragment := location.takeWhile (· ≠ byte '#')
  validEscapes (pathPart beforeFragment) && validEscapes (location.dropWhile (· ≠ byte '#'))

def hexDigit (n : Nat) : UInt8 := UInt8.ofNat (if n < 10 then 48 + n else 87 + n)

def hexEscapeNonASCII (text : Bytes) : Bytes :=
  text.flatMap (fun b => if b < 0x80 then [b] else [byte '%', hexDigit (b.toNat / 16), hexDigit (b.toNat % 16)])

-- The Location header http.Redirect sets for a text that begins with a slash.
def locationHeader (location : Bytes) : Bytes :=
  hexEscapeNonASCII
    (if parseURL location then cleanPath (pathPart location) ++ queryPart location else location)

def redirectError : Bytes := ascii "web: redirect location must be an absolute application path"

-- Redirect, up to the header that Context.Redirect sets.
def redirect (location : Bytes) : Except Bytes Bytes :=
  if location.head? ≠ some slash ∨ location[1]? = some slash ∨ location[1]? = some backslash ∨
      parseRequestURI location = false then
    .error redirectError
  else .ok (locationHeader location)

def SameOrigin (header : Bytes) : Prop :=
  header.head? = some slash ∧ header[1]? ≠ some slash ∧ header[1]? ≠ some backslash

def Escapes (location : Bytes) : Prop :=
  parseURL location = true ∧
    ∃ element, KeptFirst (split slash (pathPart location)) element ∧ element.head? = some backslash

theorem same_origin_slash (rest : Bytes) :
    SameOrigin (slash :: rest) ↔ rest.head? ≠ some slash ∧ rest.head? ≠ some backslash := by
  rw [SameOrigin, List.getElem?_cons_succ, ← List.head?_eq_getElem?]
  exact and_iff_right rfl

theorem hex_escape_head (text : Bytes) {b : UInt8} (plain : b < 0x80) (other : b ≠ byte '%') :
    (hexEscapeNonASCII text).head? = some b ↔ text.head? = some b := by
  cases text with
  | nil => exact Iff.rfl
  | cons first rest =>
    rw [hexEscapeNonASCII, List.flatMap_cons]
    by_cases low : first < 0x80
    · simp [low]
    · simp only [if_neg low, List.cons_append, List.head?_cons, Option.some.injEq]
      constructor
      · exact fun same => absurd same.symm other
      · rintro rfl
        exact absurd plain low

theorem hex_escape_same_origin (rest : Bytes) :
    SameOrigin (hexEscapeNonASCII (slash :: rest)) ↔ SameOrigin (slash :: rest) := by
  have first : hexEscapeNonASCII (slash :: rest) = slash :: hexEscapeNonASCII rest := rfl
  rw [first, same_origin_slash, same_origin_slash, Ne, Ne, hex_escape_head rest (by decide) (by decide),
    hex_escape_head rest (by decide) (by decide)]

theorem query_head (location : Bytes) :
    (queryPart location).head? = none ∨ (queryPart location).head? = some question := by
  rw [queryPart]
  cases rest : location.dropWhile (· ≠ question) with
  | nil => exact .inl rfl
  | cons b more =>
    have stopped := List.head?_dropWhile_not (fun b => decide (b ≠ question)) location
    rw [rest] at stopped
    simp only [List.head?_cons, decide_not, Bool.not_eq_eq_eq_not, Bool.not_false, decide_eq_true_eq] at stopped
    exact .inr (by rw [List.head?_cons, stopped])

theorem clean_path_same_origin {path query : Bytes} (rooted : path.head? = some slash)
    (ended : query.head? = none ∨ query.head? = some question) :
    ∃ rest, cleanPath path ++ query = slash :: rest ∧
      (SameOrigin (slash :: rest) ↔
        ¬ ∃ element, KeptFirst (split slash path) element ∧ element.head? = some backslash) := by
  obtain ⟨tail, rfl⟩ : ∃ tail, path = slash :: tail := by
    cases path with
    | nil => cases rooted
    | cons b tail =>
      cases rooted
      exact ⟨tail, rfl⟩
  have ordinary := (keep_kept (split slash (slash :: tail))).2
  have first := keep_first (split slash (slash :: tail))
  rw [cleanPath, clean_rooted]
  rw [List.getLast?_eq_head?_reverse] at first
  cases kept : (keep (split slash (slash :: tail))).reverse with
  | nil =>
    rw [kept] at first
    refine ⟨query, by simp [join], ?_⟩
    rw [same_origin_slash]
    refine iff_of_true ?_ ?_
    · rcases ended with none | some
      · rw [none]
        exact ⟨(by rintro ⟨⟩), (by rintro ⟨⟩)⟩
      · rw [some]
        exact ⟨(by decide), (by decide)⟩
    · rintro ⟨element, keptFirst, _⟩
      cases (first element).mpr keptFirst
  | cons element others =>
    rw [kept] at first
    have keptFirst := (first element).mp rfl
    obtain ⟨earlier, later, parts, _, ⟨present, _, _⟩, _⟩ := keptFirst
    cases element with
    | nil => exact absurd rfl present
    | cons b more =>
      have apart : b ≠ slash := by
        rintro rfl
        refine split_parts slash (slash :: tail) (slash :: more) ?_ List.mem_cons_self
        rw [parts]
        exact List.mem_append_right earlier List.mem_cons_self
      have only : (∃ element, KeptFirst (split slash (slash :: tail)) element ∧ element.head? = some backslash) ↔
          b = backslash := by
        constructor
        · rintro ⟨other, is, starts⟩
          cases (first other).mpr is
          exact Option.some.inj starts
        · rintro rfl
          exact ⟨_, (first _).mp rfl, rfl⟩
      rw [only, join_cons, List.cons_append]
      have starts : ∀ rest : Bytes, SameOrigin (slash :: b :: rest) ↔ ¬ b = backslash := by
        intro rest
        rw [same_origin_slash]
        simp [apart]
      generalize more ++ (if others = [] then [] else [slash] ++ join [slash] others) = middle
      split <;> exact ⟨_, rfl, starts _⟩

theorem path_part_rooted {location : Bytes} (rooted : location.head? = some slash) :
    (pathPart location).head? = some slash := by
  cases location with
  | nil => cases rooted
  | cons b rest =>
    cases rooted
    rfl

-- An accepted location leaves the host exactly if cleaning its path uncovers a
-- backslash after the first slash.
theorem redirect_same_origin_iff (location header : Bytes) (accepted : redirect location = .ok header) :
    SameOrigin header ↔ ¬ Escapes location := by
  rw [redirect] at accepted
  split at accepted
  · cases accepted
  rename_i allowed
  cases accepted
  simp only [not_or, ne_eq, not_not] at allowed
  obtain ⟨rooted, noSlash, noBackslash, _⟩ := allowed
  rw [locationHeader, Escapes]
  by_cases parsed : parseURL location = true
  · obtain ⟨rest, cleaned, decided⟩ := clean_path_same_origin (path_part_rooted rooted) (query_head location)
    rw [if_pos parsed, cleaned, hex_escape_same_origin, decided]
    simp only [parsed, true_and]
  · rw [if_neg parsed]
    refine iff_of_true ?_ (fun escapes => parsed escapes.1)
    cases location with
    | nil => cases rooted
    | cons b rest =>
      cases rooted
      rw [hex_escape_same_origin]
      exact ⟨rfl, noSlash, noBackslash⟩

theorem redirect_same_origin_iff_sample :
    redirect (ascii "/orders/../reports/?page=2") = .ok (ascii "/reports/?page=2") ∧
      (SameOrigin (ascii "/reports/?page=2") ↔ ¬ Escapes (ascii "/orders/../reports/?page=2")) := by
  have accepted : redirect (ascii "/orders/../reports/?page=2") = .ok (ascii "/reports/?page=2") := by decide
  exact ⟨accepted, redirect_same_origin_iff _ _ accepted⟩

theorem hidden_backslash_leaves_origin :
    redirect (ascii "/./\\evil.example") = .ok (ascii "/\\evil.example") ∧ ¬ SameOrigin (ascii "/\\evil.example") := by
  refine ⟨by decide, ?_⟩
  rintro ⟨_, _, noBackslash⟩
  exact noBackslash rfl

end Goforge.Web
