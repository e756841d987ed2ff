import Mathlib.Data.List.DropRight

namespace Mizan

-- Where `std::str::from_utf8` stops: the bytes before it that are valid, and how many bytes the
-- invalid sequence has, or nothing when the text ends inside a sequence.
structure Utf8Error where
  validUpTo : Nat
  errorLen : Option Nat
  deriving DecidableEq, Repr

def Utf8Error.toString (error : Utf8Error) : String :=
  match error.errorLen with
  | some errorLen =>
      s!"invalid utf-8 sequence of {errorLen} bytes from index {error.validUpTo}"
  | none => s!"incomplete utf-8 byte sequence from index {error.validUpTo}"

-- Bits of the first byte, then six bits of each continuation byte.
private def scalar (bits : Nat) (continuation : List UInt8) : Char :=
  Char.ofNat (continuation.foldl (fun value byte => value * 64 + (byte.toNat - 0x80)) bits)

-- How many continuation bytes the first byte asks for, and the range of the next one. The ranges
-- leave out what two bytes fewer could say, the surrogates, and what is above 0x10FFFF.
private def continuationOf (first : UInt8) : Option (Nat × UInt8 × UInt8) :=
  if 0xC2 ≤ first ∧ first ≤ 0xDF then some (1, 0x80, 0xBF)
  else if first = 0xE0 then some (2, 0xA0, 0xBF)
  else if first = 0xED then some (2, 0x80, 0x9F)
  else if 0xE1 ≤ first ∧ first ≤ 0xEF then some (2, 0x80, 0xBF)
  else if first = 0xF0 then some (3, 0x90, 0xBF)
  else if 0xF1 ≤ first ∧ first ≤ 0xF3 then some (3, 0x80, 0xBF)
  else if first = 0xF4 then some (3, 0x80, 0x8F)
  else none

-- The error is the length of the invalid sequence.
private def takeContinuation (low high : UInt8) :
    (count seen : Nat) → List UInt8 → Except (Option Nat) (List UInt8)
  | 0, _, _ => .ok []
  | _ + 1, _, [] => .error none
  | count + 1, seen, byte :: bytes =>
      if low ≤ byte ∧ byte ≤ high then
        (takeContinuation 0x80 0xBF count (seen + 1) bytes).map (byte :: ·)
      else .error (some seen)

private def leadingBits (first : UInt8) : Nat → Nat
  | 1 => first.toNat - 0xC0
  | 2 => first.toNat - 0xE0
  | _ => first.toNat - 0xF0

private def takeChar (first : UInt8) (bytes : List UInt8) : Except (Option Nat) (Char × Nat) :=
  if first < 0x80 then .ok (Char.ofNat first.toNat, 0)
  else
    match continuationOf first with
    | none => .error (some 1)
    | some (count, low, high) =>
        (takeContinuation low high count 1 bytes).map fun continuation =>
          (scalar (leadingBits first count) continuation, count)

private def decodeFrom : (index skip : Nat) → List UInt8 → Except Utf8Error (List Char)
  | _, _, [] => .ok []
  | index, skip + 1, _ :: bytes => decodeFrom (index + 1) skip bytes
  | index, 0, first :: bytes =>
      match takeChar first bytes with
      | .error errorLen => .error { validUpTo := index, errorLen }
      | .ok (char, count) => (decodeFrom (index + 1) count bytes).map (char :: ·)

def fromUtf8 (bytes : List UInt8) : Except Utf8Error String :=
  (decodeFrom 0 0 bytes).map String.ofList

-- "é" whole, then cut after its first byte, then with a first byte that nothing may follow.
example : fromUtf8 [0x61, 0xC3, 0xA9] = .ok "aé" := by decide
example : fromUtf8 [0x61, 0xC3] = .error { validUpTo := 1, errorLen := none } := by decide
example : fromUtf8 [0xED, 0xA0, 0x80] = .error { validUpTo := 0, errorLen := some 1 } := by decide

-- Only the empty sequence of bytes is the empty text.
theorem fromUtf8_ne_empty {first : UInt8} {bytes : List UInt8} {text : String}
    (h : fromUtf8 (first :: bytes) = .ok text) : text.isEmpty = false := by
  simp only [fromUtf8, decodeFrom] at h
  cases hchar : takeChar first bytes with
  | error errorLen => simp [hchar, Except.map] at h
  | ok taken =>
      simp only [hchar] at h
      cases hrest : decodeFrom 1 taken.2 bytes with
      | error error => simp [hrest, Except.map] at h
      | ok chars =>
          simp only [Nat.zero_add, hrest, Except.map, Except.ok.injEq] at h
          subst h
          simp

-- `str::as_bytes`
def utf8 (text : List Char) : List UInt8 := text.flatMap String.utf8EncodeChar

private theorem decodeFrom_skip {index count : Nat} {bytes : List UInt8}
    (h : count ≤ bytes.length) :
    decodeFrom index count bytes = decodeFrom (index + count) 0 (bytes.drop count) := by
  induction count generalizing index bytes with
  | zero => rfl
  | succ count ih =>
      cases bytes with
      | nil => simp at h
      | cons byte bytes =>
          have hrest : count ≤ bytes.length := by simpa using h
          rw [decodeFrom, ih hrest, List.drop_succ_cons]
          congr 1
          omega

private theorem continuationOf_eq (first : UInt8) : continuationOf first =
    if 0xC2 ≤ first.toNat ∧ first.toNat ≤ 0xDF then some (1, 0x80, 0xBF)
    else if first.toNat = 0xE0 then some (2, 0xA0, 0xBF)
    else if first.toNat = 0xED then some (2, 0x80, 0x9F)
    else if 0xE1 ≤ first.toNat ∧ first.toNat ≤ 0xEF then some (2, 0x80, 0xBF)
    else if first.toNat = 0xF0 then some (3, 0x90, 0xBF)
    else if 0xF1 ≤ first.toNat ∧ first.toNat ≤ 0xF3 then some (3, 0x80, 0xBF)
    else if first.toNat = 0xF4 then some (3, 0x80, 0x8F)
    else none := by
  simp only [continuationOf, UInt8.le_iff_toNat_le, ← UInt8.toNat_inj]
  rfl

private theorem toNat_ofNat_byte {value : Nat} (h : value < 256) :
    (UInt8.ofNat value).toNat = value := UInt8.toNat_ofNat_of_lt' h

-- A byte after the first that says the six bits `value`.
private def continuationByte (value : Nat) : UInt8 := UInt8.ofNat (value % 0x40 + 0x80)

private theorem toNat_continuationByte (value : Nat) :
    (continuationByte value).toNat = value % 0x40 + 0x80 := toNat_ofNat_byte (by omega)

private theorem takeContinuation_rest (values : List Nat) (seen : Nat) (rest : List UInt8) :
    takeContinuation 0x80 0xBF values.length seen (values.map continuationByte ++ rest) =
      .ok (values.map continuationByte) := by
  induction values generalizing seen with
  | nil => rfl
  | cons value values ih =>
      have hbyte := toNat_continuationByte value
      have hlow : 0x80 ≤ continuationByte value := by
        rw [UInt8.le_iff_toNat_le, hbyte]
        exact Nat.le_add_left _ _
      have hhigh : continuationByte value ≤ 0xBF := by
        rw [UInt8.le_iff_toNat_le, hbyte]
        show _ ≤ 0xBF
        omega
      rw [List.map_cons, List.cons_append, List.length_cons, takeContinuation,
        if_pos ⟨hlow, hhigh⟩, ih]
      rfl

private theorem takeContinuation_bytes {low high : UInt8} {value : Nat}
    (hlow : low.toNat ≤ value % 0x40 + 0x80) (hhigh : value % 0x40 + 0x80 ≤ high.toNat)
    (values : List Nat) (rest : List UInt8) :
    takeContinuation low high (values.length + 1) 1
        (continuationByte value :: (values.map continuationByte ++ rest)) =
      .ok (continuationByte value :: values.map continuationByte) := by
  have hbyte := toNat_continuationByte value
  have hbounds : low ≤ continuationByte value ∧ continuationByte value ≤ high := by
    rw [UInt8.le_iff_toNat_le, UInt8.le_iff_toNat_le, hbyte]
    exact ⟨hlow, hhigh⟩
  rw [takeContinuation, if_pos hbounds, takeContinuation_rest]
  rfl

private theorem takeChar_bytes {first low high : UInt8} {value : Nat} {values : List Nat}
    (hfirst : 0x80 ≤ first.toNat)
    (hcontinuation : continuationOf first = some (values.length + 1, low, high))
    (hlow : low.toNat ≤ value % 0x40 + 0x80) (hhigh : value % 0x40 + 0x80 ≤ high.toNat)
    (rest : List UInt8) :
    takeChar first (continuationByte value :: (values.map continuationByte ++ rest)) =
      .ok (scalar (leadingBits first (values.length + 1))
        (continuationByte value :: values.map continuationByte), values.length + 1) := by
  have hge : ¬first < 0x80 := by
    rw [UInt8.lt_iff_toNat_lt]
    exact Nat.not_lt.mpr hfirst
  rw [takeChar, if_neg hge, hcontinuation]
  simp only [takeContinuation_bytes hlow hhigh]
  rfl

private theorem utf8EncodeChar_two {c : Char} (hlower : ¬c.val.toNat ≤ 0x7f)
    (hupper : c.val.toNat ≤ 0x7ff) : String.utf8EncodeChar c =
      [UInt8.ofNat (c.val.toNat / 64 % 0x20 + 0xc0), continuationByte c.val.toNat] := by
  rw [String.utf8EncodeChar, if_neg hlower, if_pos hupper, continuationByte]

private theorem utf8EncodeChar_three {c : Char} (hlower : ¬c.val.toNat ≤ 0x7ff)
    (hupper : c.val.toNat ≤ 0xffff) : String.utf8EncodeChar c =
      [UInt8.ofNat (c.val.toNat / 4096 % 0x10 + 0xe0), continuationByte (c.val.toNat / 64),
        continuationByte c.val.toNat] := by
  have hone : ¬c.val.toNat ≤ 0x7f := by omega
  rw [String.utf8EncodeChar, if_neg hone, if_neg hlower, if_pos hupper, continuationByte,
    continuationByte]

private theorem utf8EncodeChar_four {c : Char} (hlower : ¬c.val.toNat ≤ 0xffff) :
    String.utf8EncodeChar c =
      [UInt8.ofNat (c.val.toNat / 262144 % 0x08 + 0xf0), continuationByte (c.val.toNat / 4096),
        continuationByte (c.val.toNat / 64), continuationByte c.val.toNat] := by
  have hone : ¬c.val.toNat ≤ 0x7f := by omega
  have htwo : ¬c.val.toNat ≤ 0x7ff := by omega
  rw [String.utf8EncodeChar, if_neg hone, if_neg htwo, if_neg hlower, continuationByte,
    continuationByte, continuationByte]

private theorem scalar_one (bits : Nat) (byte : UInt8) :
    scalar bits [byte] = Char.ofNat (bits * 64 + (byte.toNat - 0x80)) := by
  rw [scalar, List.foldl_cons, List.foldl_nil]

private theorem scalar_cons (bits : Nat) (byte : UInt8) (rest : List UInt8) :
    scalar bits (byte :: rest) = scalar (bits * 64 + (byte.toNat - 0x80)) rest := by
  rw [scalar, scalar, List.foldl_cons]

private theorem takeChar_one {n : Nat} (h : n ≤ 0x7f) (rest : List UInt8) :
    takeChar (UInt8.ofNat n) rest = .ok (Char.ofNat n, 0) := by
  have hfirst := @toNat_ofNat_byte n (by omega)
  have hlimit : (0x80 : UInt8).toNat = 128 := rfl
  have hlt : UInt8.ofNat n < 0x80 := by
    rw [UInt8.lt_iff_toNat_lt, hfirst, hlimit]
    omega
  rw [takeChar, if_pos hlt, hfirst]

private theorem takeChar_two {n : Nat} (hlower : 0x7f < n) (hupper : n ≤ 0x7ff)
    (rest : List UInt8) :
    takeChar (UInt8.ofNat (n / 64 % 0x20 + 0xc0)) (continuationByte n :: rest) =
      .ok (Char.ofNat n, 1) := by
  have hfirst := @toNat_ofNat_byte (n / 64 % 0x20 + 0xc0) (by omega)
  have hcontinuation : continuationOf (UInt8.ofNat (n / 64 % 0x20 + 0xc0)) =
      some (1, 0x80, 0xBF) := by
    rw [continuationOf_eq, hfirst, if_pos (by omega)]
  have hlow : (0x80 : UInt8).toNat = 128 := rfl
  have hhigh : (0xBF : UInt8).toNat = 191 := rfl
  have htake := @takeChar_bytes (UInt8.ofNat (n / 64 % 0x20 + 0xc0)) 0x80 0xBF n [] (by omega)
    hcontinuation (by omega) (by omega) rest
  have hscalar : scalar (leadingBits (UInt8.ofNat (n / 64 % 0x20 + 0xc0)) 1) [continuationByte n] =
      Char.ofNat n := by
    have hlead : leadingBits (UInt8.ofNat (n / 64 % 0x20 + 0xc0)) 1 =
        (UInt8.ofNat (n / 64 % 0x20 + 0xc0)).toNat - 0xC0 := rfl
    rw [scalar_one, hlead, hfirst, toNat_continuationByte]
    exact congrArg Char.ofNat (by omega)
  exact htake.trans (congrArg (fun c => Except.ok (c, 1)) hscalar)

private theorem takeChar_three {n : Nat} (hlower : 0x7ff < n) (hupper : n ≤ 0xffff)
    (hvalid : n < 0xD800 ∨ 0xDFFF < n) (rest : List UInt8) :
    takeChar (UInt8.ofNat (n / 4096 % 0x10 + 0xe0))
      (continuationByte (n / 64) :: continuationByte n :: rest) = .ok (Char.ofNat n, 2) := by
  have hfirst := @toNat_ofNat_byte (n / 4096 % 0x10 + 0xe0) (by omega)
  have hcontinuation : ∃ low high,
      continuationOf (UInt8.ofNat (n / 4096 % 0x10 + 0xe0)) = some (2, low, high) ∧
        low.toNat ≤ n / 64 % 0x40 + 0x80 ∧ n / 64 % 0x40 + 0x80 ≤ high.toNat := by
    have h80 : (0x80 : UInt8).toNat = 128 := rfl
    have hA0 : (0xA0 : UInt8).toNat = 160 := rfl
    have h9F : (0x9F : UInt8).toNat = 159 := rfl
    have hBF : (0xBF : UInt8).toNat = 191 := rfl
    rw [continuationOf_eq, hfirst, if_neg (by omega)]
    by_cases hshort : n / 4096 % 0x10 + 0xe0 = 0xE0
    · exact ⟨0xA0, 0xBF, if_pos hshort, by omega, by omega⟩
    · rw [if_neg hshort]
      by_cases hsurrogate : n / 4096 % 0x10 + 0xe0 = 0xED
      · exact ⟨0x80, 0x9F, if_pos hsurrogate, by omega, by omega⟩
      · rw [if_neg hsurrogate]
        exact ⟨0x80, 0xBF, if_pos (by omega), by omega, by omega⟩
  obtain ⟨low, high, hcontinuation, hlow, hhigh⟩ := hcontinuation
  have htake := @takeChar_bytes (UInt8.ofNat (n / 4096 % 0x10 + 0xe0)) low high (n / 64) [n]
    (by omega) hcontinuation hlow hhigh rest
  have hscalar : scalar (leadingBits (UInt8.ofNat (n / 4096 % 0x10 + 0xe0)) 2)
      [continuationByte (n / 64), continuationByte n] = Char.ofNat n := by
    have hlead : leadingBits (UInt8.ofNat (n / 4096 % 0x10 + 0xe0)) 2 =
        (UInt8.ofNat (n / 4096 % 0x10 + 0xe0)).toNat - 0xE0 := rfl
    rw [scalar_cons, scalar_one, hlead, hfirst, toNat_continuationByte, toNat_continuationByte]
    exact congrArg Char.ofNat (by omega)
  exact htake.trans (congrArg (fun c => Except.ok (c, 2)) hscalar)

private theorem takeChar_four {n : Nat} (hlower : 0xffff < n) (hupper : n < 0x110000)
    (rest : List UInt8) :
    takeChar (UInt8.ofNat (n / 262144 % 0x08 + 0xf0))
      (continuationByte (n / 4096) :: continuationByte (n / 64) :: continuationByte n :: rest) =
        .ok (Char.ofNat n, 3) := by
  have hfirst := @toNat_ofNat_byte (n / 262144 % 0x08 + 0xf0) (by omega)
  have hcontinuation : ∃ low high,
      continuationOf (UInt8.ofNat (n / 262144 % 0x08 + 0xf0)) = some (3, low, high) ∧
        low.toNat ≤ n / 4096 % 0x40 + 0x80 ∧ n / 4096 % 0x40 + 0x80 ≤ high.toNat := by
    have h80 : (0x80 : UInt8).toNat = 128 := rfl
    have h90 : (0x90 : UInt8).toNat = 144 := rfl
    have h8F : (0x8F : UInt8).toNat = 143 := rfl
    have hBF : (0xBF : UInt8).toNat = 191 := rfl
    rw [continuationOf_eq, hfirst, if_neg (by omega), if_neg (by omega), if_neg (by omega),
      if_neg (by omega)]
    by_cases hshort : n / 262144 % 0x08 + 0xf0 = 0xF0
    · exact ⟨0x90, 0xBF, if_pos hshort, by omega, by omega⟩
    · rw [if_neg hshort]
      by_cases hmiddle : 0xF1 ≤ n / 262144 % 0x08 + 0xf0 ∧ n / 262144 % 0x08 + 0xf0 ≤ 0xF3
      · exact ⟨0x80, 0xBF, if_pos hmiddle, by omega, by omega⟩
      · rw [if_neg hmiddle]
        exact ⟨0x80, 0x8F, if_pos (by omega), by omega, by omega⟩
  obtain ⟨low, high, hcontinuation, hlow, hhigh⟩ := hcontinuation
  have htake := @takeChar_bytes (UInt8.ofNat (n / 262144 % 0x08 + 0xf0)) low high (n / 4096)
    [n / 64, n] (by omega) hcontinuation hlow hhigh rest
  have hscalar : scalar (leadingBits (UInt8.ofNat (n / 262144 % 0x08 + 0xf0)) 3)
      [continuationByte (n / 4096), continuationByte (n / 64), continuationByte n] =
        Char.ofNat n := by
    have hlead : leadingBits (UInt8.ofNat (n / 262144 % 0x08 + 0xf0)) 3 =
        (UInt8.ofNat (n / 262144 % 0x08 + 0xf0)).toNat - 0xF0 := rfl
    rw [scalar_cons, scalar_cons, scalar_one, hlead, hfirst, toNat_continuationByte,
      toNat_continuationByte, toNat_continuationByte]
    exact congrArg Char.ofNat (by omega)
  exact htake.trans (congrArg (fun c => Except.ok (c, 3)) hscalar)

private theorem takeChar_utf8EncodeChar (c : Char) (rest : List UInt8) : ∃ first tail,
    String.utf8EncodeChar c = first :: tail ∧
    takeChar first (tail ++ rest) = .ok (c, tail.length) := by
  have hvalid : c.val.toNat < 0xD800 ∨ 0xDFFF < c.val.toNat ∧ c.val.toNat < 0x110000 := c.valid
  have hofNat : Char.ofNat c.val.toNat = c := Char.ofNat_toNat c
  by_cases hone : c.val.toNat ≤ 0x7f
  · have htake := takeChar_one hone rest
    rw [hofNat] at htake
    exact ⟨_, [], by rw [String.utf8EncodeChar, if_pos hone], htake⟩
  · by_cases htwo : c.val.toNat ≤ 0x7ff
    · have htake := takeChar_two (by omega) htwo rest
      rw [hofNat] at htake
      exact ⟨_, _, utf8EncodeChar_two hone htwo, htake⟩
    · by_cases hthree : c.val.toNat ≤ 0xffff
      · have htake := takeChar_three (by omega) hthree (by omega) rest
        rw [hofNat] at htake
        exact ⟨_, _, utf8EncodeChar_three htwo hthree, htake⟩
      · have htake := @takeChar_four c.val.toNat (by omega) (by omega) rest
        rw [hofNat] at htake
        exact ⟨_, _, utf8EncodeChar_four hthree, htake⟩

private theorem decodeFrom_utf8 (index : Nat) (text : List Char) :
    decodeFrom index 0 (utf8 text) = .ok text := by
  induction text generalizing index with
  | nil => rfl
  | cons c text ih =>
      obtain ⟨first, tail, hencoded, htake⟩ := takeChar_utf8EncodeChar c (utf8 text)
      have hcons : utf8 (c :: text) = first :: (tail ++ utf8 text) := by
        rw [utf8, List.flatMap_cons, hencoded]
        rfl
      have hlength : tail.length ≤ (tail ++ utf8 text).length := by simp
      rw [hcons, decodeFrom, htake]
      simp only [decodeFrom_skip hlength, List.drop_left, ih]
      rfl

private theorem takeContinuation_ok {low high : UInt8} {count seen : Nat}
    {bytes continuation : List UInt8}
    (h : takeContinuation low high count seen bytes = .ok continuation) :
    bytes.take count = continuation ∧ continuation.length = count ∧
      ∀ second rest, continuation = second :: rest → low.toNat ≤ second.toNat ∧
        second.toNat ≤ high.toNat ∧ ∀ byte ∈ rest, 0x80 ≤ byte.toNat ∧ byte.toNat ≤ 0xBF := by
  induction count generalizing low high seen bytes continuation with
  | zero =>
      cases h
      simp
  | succ count ih =>
      cases bytes with
      | nil => cases h
      | cons first bytes =>
          rw [takeContinuation] at h
          split at h
          · rename_i hbounds
            rw [UInt8.le_iff_toNat_le, UInt8.le_iff_toNat_le] at hbounds
            cases hrest : takeContinuation 0x80 0xBF count (seen + 1) bytes with
            | error error =>
                rw [hrest] at h
                cases h
            | ok rest =>
                rw [hrest] at h
                cases h
                obtain ⟨htake, hlength, hbytes⟩ := ih hrest
                refine ⟨by rw [List.take_succ_cons, htake], by rw [List.length_cons, hlength], ?_⟩
                intro second others heq
                obtain ⟨rfl, rfl⟩ := List.cons.inj heq
                refine ⟨hbounds.1, hbounds.2, fun byte hbyte => ?_⟩
                cases rest with
                | nil => cases hbyte
                | cons next others =>
                    obtain ⟨hlow, hhigh, hothers⟩ := hbytes next others rfl
                    rcases List.mem_cons.mp hbyte with rfl | hmem
                    · exact ⟨hlow, hhigh⟩
                    · exact hothers byte hmem
          · cases h

private theorem toNat_char {n : Nat} (h : n < 0xD800 ∨ 0xDFFF < n ∧ n < 0x110000) :
    (Char.ofNat n).val.toNat = n := by
  have hvalid : n.isValidChar := h
  rw [Char.ofNat, dif_pos hvalid]
  rfl

private theorem ofNat_byte {byte : UInt8} {value : Nat} (h : value = byte.toNat) :
    UInt8.ofNat value = byte := by
  rw [h, UInt8.ofNat_toNat]

private theorem encode_two {first second : UInt8} (hfirst : 0xC2 ≤ first.toNat ∧ first.toNat ≤ 0xDF)
    (hsecond : 0x80 ≤ second.toNat ∧ second.toNat ≤ 0xBF) :
    String.utf8EncodeChar (scalar (leadingBits first 1) [second]) = [first, second] := by
  have hlead : leadingBits first 1 = first.toNat - 0xC0 := rfl
  rw [scalar_one, hlead]
  generalize hn : (first.toNat - 0xC0) * 64 + (second.toNat - 0x80) = n
  have hval := @toNat_char n (by omega)
  rw [utf8EncodeChar_two (by omega) (by omega), hval, continuationByte,
    ofNat_byte (show n / 64 % 0x20 + 0xc0 = first.toNat by omega),
    ofNat_byte (show n % 0x40 + 0x80 = second.toNat by omega)]

private theorem encode_three {first second third : UInt8}
    (hfirst : 0xE0 ≤ first.toNat ∧ first.toNat ≤ 0xEF)
    (hsecond : 0x80 ≤ second.toNat ∧ second.toNat ≤ 0xBF)
    (hshort : first.toNat = 0xE0 → 0xA0 ≤ second.toNat)
    (hsurrogate : first.toNat = 0xED → second.toNat ≤ 0x9F)
    (hthird : 0x80 ≤ third.toNat ∧ third.toNat ≤ 0xBF) :
    String.utf8EncodeChar (scalar (leadingBits first 2) [second, third]) =
      [first, second, third] := by
  have hlead : leadingBits first 2 = first.toNat - 0xE0 := rfl
  rw [scalar_cons, scalar_one, hlead]
  generalize hn : ((first.toNat - 0xE0) * 64 + (second.toNat - 0x80)) * 64 +
    (third.toNat - 0x80) = n
  have hval := @toNat_char n (by omega)
  rw [utf8EncodeChar_three (by omega) (by omega), hval, continuationByte, continuationByte,
    ofNat_byte (show n / 4096 % 0x10 + 0xe0 = first.toNat by omega),
    ofNat_byte (show n / 64 % 0x40 + 0x80 = second.toNat by omega),
    ofNat_byte (show n % 0x40 + 0x80 = third.toNat by omega)]

private theorem encode_four {first second third fourth : UInt8}
    (hfirst : 0xF0 ≤ first.toNat ∧ first.toNat ≤ 0xF4)
    (hsecond : 0x80 ≤ second.toNat ∧ second.toNat ≤ 0xBF)
    (hshort : first.toNat = 0xF0 → 0x90 ≤ second.toNat)
    (hlast : first.toNat = 0xF4 → second.toNat ≤ 0x8F)
    (hthird : 0x80 ≤ third.toNat ∧ third.toNat ≤ 0xBF)
    (hfourth : 0x80 ≤ fourth.toNat ∧ fourth.toNat ≤ 0xBF) :
    String.utf8EncodeChar (scalar (leadingBits first 3) [second, third, fourth]) =
      [first, second, third, fourth] := by
  have hlead : leadingBits first 3 = first.toNat - 0xF0 := rfl
  rw [scalar_cons, scalar_cons, scalar_one, hlead]
  generalize hn : (((first.toNat - 0xF0) * 64 + (second.toNat - 0x80)) * 64 +
    (third.toNat - 0x80)) * 64 + (fourth.toNat - 0x80) = n
  have hval := @toNat_char n (by omega)
  rw [utf8EncodeChar_four (by omega), hval, continuationByte, continuationByte, continuationByte,
    ofNat_byte (show n / 262144 % 0x08 + 0xf0 = first.toNat by omega),
    ofNat_byte (show n / 4096 % 0x40 + 0x80 = second.toNat by omega),
    ofNat_byte (show n / 64 % 0x40 + 0x80 = third.toNat by omega),
    ofNat_byte (show n % 0x40 + 0x80 = fourth.toNat by omega)]

private theorem continuationOf_some {first low high : UInt8} {count : Nat}
    (h : continuationOf first = some (count, low, high)) :
    0x80 ≤ low.toNat ∧ high.toNat ≤ 0xBF ∧
      ((count = 1 ∧ 0xC2 ≤ first.toNat ∧ first.toNat ≤ 0xDF) ∨
        (count = 2 ∧ (0xE0 ≤ first.toNat ∧ first.toNat ≤ 0xEF) ∧
          (first.toNat = 0xE0 → 0xA0 ≤ low.toNat) ∧ (first.toNat = 0xED → high.toNat ≤ 0x9F)) ∨
        (count = 3 ∧ (0xF0 ≤ first.toNat ∧ first.toNat ≤ 0xF4) ∧
          (first.toNat = 0xF0 → 0x90 ≤ low.toNat) ∧ (first.toNat = 0xF4 → high.toNat ≤ 0x8F))) := by
  have h80 : (0x80 : UInt8).toNat = 128 := rfl
  have h90 : (0x90 : UInt8).toNat = 144 := rfl
  have hA0 : (0xA0 : UInt8).toNat = 160 := rfl
  have h8F : (0x8F : UInt8).toNat = 143 := rfl
  have h9F : (0x9F : UInt8).toNat = 159 := rfl
  have hBF : (0xBF : UInt8).toNat = 191 := rfl
  rw [continuationOf_eq] at h
  split at h
  · cases h
    omega
  · split at h
    · cases h
      omega
    · split at h
      · cases h
        omega
      · split at h
        · cases h
          omega
        · split at h
          · cases h
            omega
          · split at h
            · cases h
              omega
            · split at h
              · cases h
                omega
              · cases h

private theorem encode_scalar {first low high : UInt8} {count : Nat} {continuation : List UInt8}
    (hfirst : continuationOf first = some (count, low, high))
    (hlength : continuation.length = count)
    (hbytes : ∀ second rest, continuation = second :: rest → low.toNat ≤ second.toNat ∧
      second.toNat ≤ high.toNat ∧ ∀ byte ∈ rest, 0x80 ≤ byte.toNat ∧ byte.toNat ≤ 0xBF) :
    String.utf8EncodeChar (scalar (leadingBits first count) continuation) =
      first :: continuation := by
  obtain ⟨hlow, hhigh, ⟨rfl, hrange⟩ | ⟨rfl, hrange, hshort, hlong⟩ | ⟨rfl, hrange, hshort,
    hlong⟩⟩ :=
    continuationOf_some hfirst
  · match continuation, hlength with
    | [second], _ =>
        obtain ⟨hlower, hupper, -⟩ := hbytes second [] rfl
        exact encode_two hrange ⟨by omega, by omega⟩
  · match continuation, hlength with
    | [second, third], _ =>
        obtain ⟨hlower, hupper, hrest⟩ := hbytes second [third] rfl
        exact encode_three hrange ⟨by omega, by omega⟩ (fun h => (hshort h).trans hlower)
          (fun h => hupper.trans (hlong h)) (hrest third List.mem_cons_self)
  · match continuation, hlength with
    | [second, third, fourth], _ =>
        obtain ⟨hlower, hupper, hrest⟩ := hbytes second [third, fourth] rfl
        exact encode_four hrange ⟨by omega, by omega⟩ (fun h => (hshort h).trans hlower)
          (fun h => hupper.trans (hlong h)) (hrest third List.mem_cons_self)
          (hrest fourth (List.mem_cons_of_mem third List.mem_cons_self))

private theorem takeChar_ok {first : UInt8} {bytes : List UInt8} {c : Char} {count : Nat}
    (h : takeChar first bytes = .ok (c, count)) :
    count ≤ bytes.length ∧ String.utf8EncodeChar c = first :: bytes.take count := by
  rw [takeChar] at h
  split at h
  · rename_i hlt
    rw [UInt8.lt_iff_toNat_lt] at hlt
    have hlimit : (0x80 : UInt8).toNat = 128 := rfl
    cases h
    have hval := @toNat_char first.toNat (by omega)
    refine ⟨Nat.zero_le _, ?_⟩
    rw [String.utf8EncodeChar, hval, if_pos (by omega), UInt8.ofNat_toNat, List.take_zero]
  · split at h
    · cases h
    · rename_i counted low high hcontinuation
      cases htaken : takeContinuation low high counted 1 bytes with
      | error error =>
          rw [htaken] at h
          cases h
      | ok continuation =>
          rw [htaken] at h
          cases h
          obtain ⟨htake, hlength, hbytes⟩ := takeContinuation_ok htaken
          have hle : count ≤ bytes.length := by
            have htakeLength := congrArg List.length htake
            rw [List.length_take] at htakeLength
            omega
          exact ⟨hle, by rw [htake, encode_scalar hcontinuation hlength hbytes]⟩

private theorem utf8_of_decodeFrom {index : Nat} {bytes : List UInt8} {text : List Char}
    (h : decodeFrom index 0 bytes = .ok text) : bytes = utf8 text := by
  induction hsize : bytes.length using Nat.strong_induction_on generalizing index bytes text with
  | h size ih =>
      cases bytes with
      | nil =>
          cases h
          rfl
      | cons first bytes =>
          rw [decodeFrom] at h
          split at h
          · cases h
          · rename_i c count htake
            obtain ⟨hle, hencoded⟩ := takeChar_ok htake
            rw [decodeFrom_skip hle] at h
            cases hrest : decodeFrom (index + 1 + count) 0 (bytes.drop count) with
            | error error =>
                rw [hrest] at h
                cases h
            | ok rest =>
                rw [hrest] at h
                cases h
                have hlt : (bytes.drop count).length < size := by
                  rw [List.length_drop]
                  rw [List.length_cons] at hsize
                  omega
                have hdrop := ih _ hlt hrest rfl
                rw [utf8, List.flatMap_cons, hencoded, ← utf8, ← hdrop, List.cons_append,
                  List.take_append_drop]

-- What is read as a text is its bytes.
theorem utf8_of_fromUtf8 {bytes : List UInt8} {s : String} (h : fromUtf8 bytes = .ok s) :
    bytes = utf8 s.toList := by
  rw [fromUtf8] at h
  cases hdecoded : decodeFrom 0 0 bytes with
  | error error =>
      rw [hdecoded] at h
      cases h
  | ok text =>
      rw [hdecoded] at h
      cases h
      rw [String.toList_ofList]
      exact utf8_of_decodeFrom hdecoded

-- A text is read back from its bytes.
theorem fromUtf8_utf8 (s : String) : fromUtf8 (utf8 s.toList) = .ok s := by
  rw [fromUtf8, decodeFrom_utf8]
  exact congrArg Except.ok String.ofList_toList

end Mizan
