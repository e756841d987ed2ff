import Mizan.Core.Hyphenated
import Mizan.Core.Numeric
import Mizan.Daemon.Digest

namespace Mizan.Daemon

inductive ParseIntError where
  | empty
  | invalidDigit
  | posOverflow
  | negOverflow
  deriving DecidableEq, Repr

def ParseIntError.toString : ParseIntError → String
  | .empty => "cannot parse integer from empty string"
  | .invalidDigit => "invalid digit found in string"
  | .posOverflow => "number too large to fit in target type"
  | .negOverflow => "number too small to fit in target type"

-- The digits after the sign, added to what is read so far.
def parseDigits (negative : Bool) : List Char → Int → Except ParseIntError Int
  | [], result => .ok result
  | digit :: digits, result =>
      if !digit.isDigit then .error .invalidDigit
      else
        let place := (digit.toNat - '0'.toNat : Nat)
        let result := if negative then result * 10 - place else result * 10 + place
        if result < -2 ^ 63 then .error .negOverflow
        else if 2 ^ 63 ≤ result then .error .posOverflow
        else parseDigits negative digits result

-- `str::parse::<i64>`
def parseI64 (raw : String) : Except ParseIntError Int64 :=
  match raw.toList with
  | [] => .error .empty
  | ['+'] | ['-'] => .error .invalidDigit
  | '+' :: digits => (parseDigits false digits 0).map Int64.ofInt
  | '-' :: digits => (parseDigits true digits 0).map Int64.ofInt
  | digits => (parseDigits false digits 0).map Int64.ofInt

-- The digits of a number read back, on either side of zero.
theorem parseDigits_of_isDigit {negative : Bool} {sign : Int} {digits : List Char} {read : Nat}
    (hsign : sign = if negative then -1 else 1) (hdigits : ∀ digit ∈ digits, digit.isDigit = true)
    (hlow : -2 ^ 63 ≤ sign * Nat.ofDigitChars 10 digits read)
    (hhigh : sign * Nat.ofDigitChars 10 digits read < 2 ^ 63) :
    parseDigits negative digits (sign * read) = .ok (sign * Nat.ofDigitChars 10 digits read) := by
  induction digits generalizing read with
  | nil => rfl
  | cons digit digits ih =>
      have hdigit := hdigits digit List.mem_cons_self
      have hrest := fun other hmem => hdigits other (List.mem_cons_of_mem digit hmem)
      rw [Nat.ofDigitChars_cons] at hlow hhigh ⊢
      have hgrows := @Nat.ofDigitChars_eq_ofDigitChars_zero digits
        (10 * read + (digit.toNat - '0'.toNat))
      have hpositive : 1 ≤ 10 ^ digits.length := Nat.one_le_pow _ _ (by decide)
      have hread : 10 * read + (digit.toNat - '0'.toNat) ≤
          Nat.ofDigitChars 10 digits (10 * read + (digit.toNat - '0'.toNat)) := by
        rw [hgrows]
        nlinarith
      have hnext : (if negative then sign * read * 10 - (digit.toNat - '0'.toNat : Nat)
          else sign * read * 10 + (digit.toNat - '0'.toNat : Nat)) =
          sign * ((10 * read + (digit.toNat - '0'.toNat) : Nat) : Int) := by
        cases negative <;> simp only [Bool.false_eq_true, if_false, if_true] at hsign ⊢ <;>
          subst hsign <;> push_cast <;> ring
      have hbounds : -2 ^ 63 ≤ sign * ((10 * read + (digit.toNat - '0'.toNat) : Nat) : Int) ∧
          sign * ((10 * read + (digit.toNat - '0'.toNat) : Nat) : Int) < 2 ^ 63 := by
        cases negative <;> simp only [Bool.false_eq_true, if_false, if_true] at hsign <;>
          subst hsign <;> omega
      simp only [parseDigits, hdigit, Bool.not_true, Bool.false_eq_true, if_false]
      rw [hnext, if_neg (by omega), if_neg (by omega)]
      exact ih hrest hlow hhigh

theorem isDigit_of_mem_toDigits {n : Nat} : ∀ digit ∈ Nat.toDigits 10 n, digit.isDigit = true :=
  fun _ hmem => Nat.isDigit_of_mem_toDigits (by decide) (by decide) hmem

theorem parseI64_of_isDigit {raw : String} (hsome : raw.toList ≠ [])
    (hdigits : ∀ digit ∈ raw.toList, digit.isDigit = true) :
    parseI64 raw = (parseDigits false raw.toList 0).map Int64.ofInt := by
  have hplus : '+' ∉ raw.toList := fun hmem => absurd (hdigits _ hmem) (by decide)
  have hminus : '-' ∉ raw.toList := fun hmem => absurd (hdigits _ hmem) (by decide)
  unfold parseI64
  split <;> simp_all

-- What is written down of a time is what is read of it.
theorem parseI64_toString (value : Int64) : parseI64 (toString value) = .ok value := by
  have hlow := value.le_toInt
  have hhigh := value.toInt_lt
  rw [toString_eq_repr]
  cases hvalue : value.toInt with
  | ofNat n =>
      have hn : n < 2 ^ 63 := by
        rw [hvalue] at hhigh
        exact Int.ofNat_lt.mp hhigh
      have hread := @parseDigits_of_isDigit false 1
        (Nat.toDigits 10 n) 0 rfl isDigit_of_mem_toDigits
        (by rw [Nat.ofDigitChars_ten_toDigits]; omega)
        (by rw [Nat.ofDigitChars_ten_toDigits]; omega)
      rw [Nat.ofDigitChars_ten_toDigits] at hread
      simp only [Int.one_mul, Int.natCast_zero] at hread
      have hchars : (Int.ofNat n).repr.toList = Nat.toDigits 10 n := Nat.toList_repr
      have hdigits : ∀ digit ∈ (Int.ofNat n).repr.toList, digit.isDigit = true := by
        rw [hchars]
        exact isDigit_of_mem_toDigits
      rw [parseI64_of_isDigit (by rw [hchars]; exact Nat.toDigits_ne_nil) hdigits, hchars, hread]
      have hback := Int64.ofInt_toInt value
      rw [hvalue] at hback
      exact congrArg Except.ok hback
  | negSucc n =>
      have hn : n + 1 ≤ 2 ^ 63 := by
        rw [hvalue, Int.negSucc_eq] at hlow
        omega
      have hread := @parseDigits_of_isDigit true (-1) (Nat.toDigits 10 (n + 1)) 0 rfl
        isDigit_of_mem_toDigits (by rw [Nat.ofDigitChars_ten_toDigits]; omega)
        (by rw [Nat.ofDigitChars_ten_toDigits]; omega)
      rw [Nat.ofDigitChars_ten_toDigits] at hread
      simp only [Int.natCast_zero, Int.mul_zero] at hread
      have hsome : Nat.toDigits 10 (n + 1) ≠ [] := Nat.toDigits_ne_nil
      have hchars : (Int.negSucc n).repr.toList = '-' :: Nat.toDigits 10 (n + 1) := by
        simp [Int.repr, String.toList_append, Nat.toList_repr]
      unfold parseI64
      rw [hchars]
      have hparse : (parseDigits true (Nat.toDigits 10 (n + 1)) 0).map Int64.ofInt = .ok value := by
        rw [hread]
        refine congrArg Except.ok ?_
        rw [show (-1 * ((n + 1 : Nat) : Int)) = Int.negSucc n by rw [Int.negSucc_eq]; omega,
          ← hvalue]
        exact Int64.ofInt_toInt value
      generalize Nat.toDigits 10 (n + 1) = digits at hsome hparse
      cases digits with
      | nil => exact absurd rfl hsome
      | cons first rest => exact hparse

def parseTimestamp (raw : String) : Except AppError Int64 :=
  (parseI64 raw).mapError fun error => .infrastructure s!"invalid timestamp: {error.toString}"

structure DaemonNodeHttpError where
  status : Nat
  error : AppError
  deriving DecidableEq, Repr

def UNAUTHORIZED : Nat := 401
def INTERNAL_SERVER_ERROR : Nat := 500

def unauthorized : DaemonNodeHttpError := { status := UNAUTHORIZED, error := .unauthorized }

def DAEMON_SIGNATURE_TTL_SECONDS : Int64 := 300
def AUTHORIZATION : String := "authorization"
def DAEMON_SIGNATURE_HEADER : String := "x-mizan-daemon-signature"
def DAEMON_SIGNATURE_NONCE_HEADER : String := "x-mizan-daemon-nonce"
def DAEMON_SIGNATURE_TIMESTAMP_HEADER : String := "x-mizan-daemon-timestamp"
def DAEMON_SIGNATURE_BODY_HASH_HEADER : String := "x-mizan-daemon-body-hash"
def DAEMON_SIGNATURE_NONCE_CACHE_PRUNE_THRESHOLD : Nat := 256
def STATUS_REVOKED : String := "revoked"

-- A header value that is no visible ASCII text has no text.
structure DaemonRequest where
  method : String
  path : String
  headers : List (String × Option String)
  body : List UInt8
  deriving DecidableEq, Repr

-- The text of the first header of the name.
def DaemonRequest.header (request : DaemonRequest) (name : String) : Option String :=
  (request.headers.find? fun header => header.1 = name).bind (·.2)

def headerValue (request : DaemonRequest) (name : String) (status : Nat) (error : AppError) :
    Except DaemonNodeHttpError String :=
  match ((request.header name).map trim).filter (· ≠ "") with
  | some value => .ok value
  | none => .error { status, error }

def splitWhitespace : (word : List Char) → List Char → List (List Char)
  | word, [] => if word = [] then [] else [word]
  | word, character :: rest =>
      if isWhitespace character then
        if word = [] then splitWhitespace [] rest else word :: splitWhitespace [] rest
      else splitWhitespace (word ++ [character]) rest

def eqIgnoreAsciiCase (left right : List Char) : Bool :=
  left.map Char.toLower = right.map Char.toLower

def authorizationToken (rawAuthorization : String) : Option String :=
  match splitWhitespace [] rawAuthorization.toList with
  | scheme :: token :: _ =>
      if eqIgnoreAsciiCase scheme "Bearer".toList then some (String.ofList token) else none
  | _ => none

theorem splitWhitespace_of_free {word rest : List Char} (hsome : word ++ rest ≠ [])
    (hfree : ∀ character ∈ rest, isWhitespace character = false) :
    splitWhitespace word rest = [word ++ rest] := by
  induction rest generalizing word with
  | nil =>
      rw [List.append_nil] at hsome ⊢
      rw [splitWhitespace, if_neg hsome]
  | cons character rest ih =>
      have hcharacter := hfree character List.mem_cons_self
      rw [splitWhitespace, hcharacter, if_neg Bool.false_ne_true, ih (by simp)
        fun other hmem => hfree other (List.mem_cons_of_mem character hmem)]
      simp

-- A token is presented in the words of the bearer scheme.
theorem authorizationToken_bearer {token : String} (hsome : token ≠ "")
    (hfree : ∀ character ∈ token.toList, isWhitespace character = false) :
    authorizationToken ("Bearer " ++ token) = some token := by
  have hscheme : ("Bearer " ++ token).toList =
      'B' :: 'e' :: 'a' :: 'r' :: 'e' :: 'r' :: ' ' :: token.toList := by
    rw [String.toList_append]
    rfl
  have htoken : [] ++ token.toList ≠ [] := fun h => hsome (String.toList_eq_nil_iff.mp h)
  have hsplit : splitWhitespace [] ("Bearer " ++ token).toList =
    ["Bearer".toList, token.toList] := by
    have hrest := splitWhitespace_of_free htoken hfree
    rw [hscheme]
    simp only [splitWhitespace, hrest]
    rfl
  rw [authorizationToken, hsplit]
  simp [eqIgnoreAsciiCase]

theorem isWhitespace_of_mem_hexDigest {digest : List UInt8} {character : Char}
    (h : character ∈ (hexDigest digest).toList) : isWhitespace character = false := by
  obtain ⟨digit, hdigit, rfl⟩ := mem_hexDigest h
  exact isWhitespace_digitChar digit hdigit

theorem isWhitespace_of_isDigit {character : Char} (h : character.isDigit = true) :
    isWhitespace character = false := by
  have hlow : 48 ≤ character.toNat := by
    simp only [Char.isDigit, Bool.and_eq_true, decide_eq_true_eq] at h
    exact h.1
  have hhigh : character.toNat ≤ 57 := by
    simp only [Char.isDigit, Bool.and_eq_true, decide_eq_true_eq] at h
    exact h.2
  simp only [isWhitespace, Bool.or_eq_false_iff, Bool.and_eq_false_iff, decide_eq_false_iff_not,
    beq_eq_false_iff_ne]
  omega

theorem mem_time {value : Int64} {character : Char} (h : character ∈ (toString value).toList) :
    character = '-' ∨ character.isDigit = true := by
  have hdigits : ∀ n : Nat, character ∈ n.repr.toList → character.isDigit = true := by
    intro n hmem
    rw [Nat.toList_repr] at hmem
    exact isDigit_of_mem_toDigits character hmem
  rw [toString_eq_repr] at h
  cases hvalue : value.toInt with
  | ofNat n =>
      rw [hvalue] at h
      exact .inr (hdigits n h)
  | negSucc n =>
      rw [hvalue] at h
      obtain hminus | hmem := List.mem_append.mp
        (by simpa only [Int.repr, String.toList_append] using h)
      · exact .inl (by simpa using hminus)
      · exact .inr (hdigits (n + 1) hmem)

theorem isWhitespace_of_mem_time {value : Int64} {character : Char}
    (h : character ∈ (toString value).toList) : isWhitespace character = false := by
  obtain rfl | hdigit := mem_time h
  · decide
  · exact isWhitespace_of_isDigit hdigit

theorem headerValue_of_free {request : DaemonRequest} {name value : String} {status : Nat}
    {error : AppError} (hheader : request.header name = some value) (hsome : value ≠ "")
    (hfree : ∀ character ∈ value.toList, isWhitespace character = false) :
    headerValue request name status error = .ok value := by
  simp [headerValue, hheader, trim_of_free hfree, Option.filter, hsome]

def requiresBodySignature (path : String) : Bool :=
  path == "/daemon/register" || path == "/daemon/heartbeat" ||
    ("/daemon/jobs/".toList.isPrefixOf path.toList && "/complete".toList.isSuffixOf path.toList)

-- What a request says about its signature.
structure RequestSignature where
  timestamp : Int64
  nonce : String
  signature : String
  bodyHash : String
  deriving DecidableEq, Repr

def bodyHashHeader (request : DaemonRequest) : String :=
  ((request.header DAEMON_SIGNATURE_BODY_HASH_HEADER).map trim).getD ""

def requestSignature (request : DaemonRequest) : Except DaemonNodeHttpError RequestSignature := do
  let timestampRaw ←
    headerValue request DAEMON_SIGNATURE_TIMESTAMP_HEADER UNAUTHORIZED .unauthorized
  let nonce ← headerValue request DAEMON_SIGNATURE_NONCE_HEADER UNAUTHORIZED .unauthorized
  let signature ← headerValue request DAEMON_SIGNATURE_HEADER UNAUTHORIZED .unauthorized
  let bodyHash := bodyHashHeader request
  if requiresBodySignature request.path ∧ bodyHash = "" then throw unauthorized
  let timestamp ← (parseTimestamp timestampRaw).mapError fun error =>
    { status := UNAUTHORIZED
      error := .invalidConfig DAEMON_SIGNATURE_TIMESTAMP_HEADER error.toString }
  pure { timestamp, nonce, signature, bodyHash }

theorem requestSignature_bodyHash {request : DaemonRequest} {signature : RequestSignature}
    (h : requestSignature request = .ok signature) :
    signature.bodyHash = bodyHashHeader request := by
  obtain ⟨timestampRaw, _, h⟩ := except_bind_eq_ok h
  obtain ⟨nonce, _, h⟩ := except_bind_eq_ok h
  obtain ⟨signatureText, _, h⟩ := except_bind_eq_ok h
  simp only at h
  split at h
  · cases h
  · obtain ⟨timestamp, _, h⟩ := except_bind_eq_ok h
    cases h
    rfl

-- The expiry of the nonce of a request that is fresh now.
def nonceExpiry (timestamp now : Int64) : Option Int64 := do
  let ageSeconds ← (checkedSub now timestamp).bind checkedAbs
  if ageSeconds > DAEMON_SIGNATURE_TTL_SECONDS then none
  else checkedAdd timestamp DAEMON_SIGNATURE_TTL_SECONDS

theorem toInt_nonceExpiry {timestamp now expiry : Int64}
    (h : nonceExpiry timestamp now = some expiry) :
    expiry.toInt = timestamp.toInt + 300 ∧ now.toInt ≤ expiry.toInt := by
  simp only [nonceExpiry, Option.bind_eq_bind, Option.bind_eq_some_iff] at h
  obtain ⟨ageSeconds, ⟨delta, hdelta, habs⟩, hexpiry⟩ := h
  have hdelta := toInt_of_checkedI64 hdelta
  have habs := toInt_of_checkedI64 habs
  split at hexpiry
  · cases hexpiry
  · rename_i hage
    have hage := toInt_le_of_not_lt hage
    have hexpiry := toInt_of_checkedI64 hexpiry
    have httl : DAEMON_SIGNATURE_TTL_SECONDS.toInt = 300 := rfl
    omega

end Mizan.Daemon
