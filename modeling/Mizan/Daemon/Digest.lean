import Mizan.Delimited.Fields
import Mathlib

namespace Mizan.Daemon

def bytes (s : String) : List UInt8 := s.toByteArray.data.toList

theorem bytes_injective {s s' : String} (h : bytes s = bytes s') : s = s' :=
  String.toByteArray_inj.mp (ByteArray.ext (Array.toList_inj.mp h))

-- `{byte:02x}`
def hexByte (byte : UInt8) : List Char :=
  [Nat.digitChar (byte.toNat / 16), Nat.digitChar (byte.toNat % 16)]

def hexDigest (digest : List UInt8) : String := String.ofList (digest.flatMap hexByte)

theorem digitChar_injective : ∀ i < 16, ∀ j < 16, Nat.digitChar i = Nat.digitChar j → i = j := by
  decide

theorem hexByte_injective {byte byte' : UInt8} (h : hexByte byte = hexByte byte') :
    byte = byte' := by
  have hlt := byte.toNat_lt
  have hlt' := byte'.toNat_lt
  simp only [hexByte, List.cons.injEq, and_true] at h
  have hhigh := digitChar_injective _ (by omega) _ (by omega) h.1
  have hlow := digitChar_injective _ (by omega) _ (by omega) h.2
  exact UInt8.toNat_inj.mp (by omega)

theorem flatMap_hexByte_injective {digest digest' : List UInt8}
    (h : digest.flatMap hexByte = digest'.flatMap hexByte) : digest = digest' := by
  induction digest generalizing digest' with
  | nil =>
      cases digest' with
      | nil => rfl
      | cons byte' digest' => simp [hexByte] at h
  | cons byte digest ih =>
      cases digest' with
      | nil => simp [hexByte] at h
      | cons byte' digest' =>
          simp only [List.flatMap_cons] at h
          obtain ⟨hbyte, hrest⟩ := List.append_inj h rfl
          rw [hexByte_injective hbyte, ih hrest]

theorem hexDigest_injective {digest digest' : List UInt8}
    (h : hexDigest digest = hexDigest digest') :
    digest = digest' :=
  flatMap_hexByte_injective (String.ofList_inj.mp h)

theorem digitChar_ne_separator : ∀ i < 16, Nat.digitChar i ≠ '|' := by
  decide

theorem mem_hexDigest {digest : List UInt8} {c : Char} (h : c ∈ (hexDigest digest).toList) :
    ∃ digit < 16, c = Nat.digitChar digit := by
  rw [hexDigest, String.toList_ofList, List.mem_flatMap] at h
  obtain ⟨byte, _, hmem⟩ := h
  have hlt := byte.toNat_lt
  simp only [hexByte, List.mem_cons, List.not_mem_nil, or_false] at hmem
  rcases hmem with rfl | rfl
  · exact ⟨_, by omega, rfl⟩
  · exact ⟨_, by omega, rfl⟩

theorem separator_not_mem_hexDigest (digest : List UInt8) : '|' ∉ (hexDigest digest).toList := by
  intro hmem
  obtain ⟨digit, hdigit, hchar⟩ := mem_hexDigest hmem
  exact digitChar_ne_separator digit hdigit hchar.symm

theorem hexDigest_ne_empty {digest : List UInt8} (h : digest ≠ []) : hexDigest digest ≠ "" := by
  cases digest with
  | nil => exact absurd rfl h
  | cons byte rest =>
      intro hempty
      have hchars := congrArg String.toList hempty
      simp [hexDigest, hexByte] at hchars

theorem toString_eq_repr (a : Int64) : toString a = a.toInt.repr :=
  (Int.toString_eq_repr : toString a.toInt = a.toInt.repr)

theorem toString_injective {a b : Int64} (h : toString a = toString b) : a = b := by
  rw [toString_eq_repr, toString_eq_repr] at h
  exact Int64.toInt_inj.mp (Int.repr_inj.mp h)

theorem separator_not_mem_toString (a : Int64) : '|' ∉ (toString a).toList := by
  have hdigits : ∀ n : Nat, '|' ∉ n.repr.toList := by
    intro n hmem
    rw [Nat.toList_repr] at hmem
    exact absurd (Nat.isDigit_of_mem_toDigits (by decide) (by decide) hmem) (by decide)
  rw [toString_eq_repr]
  cases a.toInt with
  | ofNat n => exact hdigits n
  | negSucc n =>
      intro hmem
      obtain hmem | hmem := List.mem_append.mp
        (by simpa only [Int.repr, String.toList_append] using hmem)
      · exact absurd hmem (by decide)
      · exact hdigits (n + 1) hmem

def secureEq (left right : String) : Bool :=
  if (bytes left).length ≠ (bytes right).length then false
  else
    let diff := ((bytes left).zip (bytes right)).foldl
      (fun diff (left, right) => diff ||| (left ^^^ right)) (0 : UInt8)
    diff == 0

theorem foldl_or_eq_zero (pairs : List (UInt8 × UInt8)) (diff : UInt8) :
    pairs.foldl (fun diff (left, right) => diff ||| (left ^^^ right)) diff = 0 ↔
      diff = 0 ∧ ∀ pair ∈ pairs, pair.1 = pair.2 := by
  induction pairs generalizing diff with
  | nil => simp
  | cons pair pairs ih =>
      rw [List.foldl_cons, ih, UInt8.or_eq_zero_iff, UInt8.xor_eq_zero_iff]
      simp [and_assoc]

theorem eq_of_zip_eq {left right : List UInt8} (hlength : left.length = right.length)
    (h : ∀ pair ∈ left.zip right, pair.1 = pair.2) : left = right := by
  induction left generalizing right with
  | nil => exact (List.eq_nil_of_length_eq_zero hlength.symm).symm
  | cons byte left ih =>
      cases right with
      | nil => cases hlength
      | cons byte' right =>
          simp only [List.zip_cons_cons, List.mem_cons, forall_eq_or_imp] at h
          rw [h.1, ih (Nat.succ.inj hlength) h.2]

theorem secureEq_iff {left right : String} : secureEq left right = true ↔ left = right := by
  constructor
  · intro h
    rw [secureEq] at h
    split at h
    · cases h
    · rename_i hlength
      have hdiff := (foldl_or_eq_zero _ _).mp (eq_of_beq h)
      exact bytes_injective (eq_of_zip_eq (not_not.mp hlength) hdiff.2)
  · rintro rfl
    rw [secureEq, if_neg (not_not.mpr rfl)]
    refine beq_iff_eq.mpr ((foldl_or_eq_zero _ _).mpr ⟨rfl, fun pair hpair => ?_⟩)
    obtain ⟨index, hindex, rfl⟩ := List.mem_iff_getElem.mp hpair
    rw [List.getElem_zip]

section Sha256

variable (sha256 : List UInt8 → List UInt8)

def hashValue (value : String) : String := hexDigest (sha256 (bytes value))

def computeDaemonSignature (tokenHash method path : String) (timestamp : Int64)
    (nonce bodyHash : String) : String :=
  hexDigest (sha256 (bytes (tokenHash ++ "|" ++ method ++ "|" ++ path ++ "|" ++
    toString timestamp ++
    "|" ++ nonce ++ "|" ++ bodyHash)))

def verifyDaemonSignature (tokenHash method path : String) (timestamp : Int64)
    (nonce bodyHash signature : String) : Bool :=
  secureEq (computeDaemonSignature sha256 tokenHash method path timestamp nonce bodyHash) signature

-- What the daemon has of its own for the same digests.
def hashBytes (body : List UInt8) : String := hexDigest (sha256 body)

def hashToken (token : String) : String := hashBytes sha256 (bytes token)

def computeRequestSignature (tokenHash method path : String) (timestamp : Int64)
    (nonce bodyHash : String) : String :=
  computeDaemonSignature sha256 tokenHash method path timestamp nonce bodyHash

end Sha256

section Injective

variable {sha256 : List UInt8 → List UInt8} (hinjective : Function.Injective sha256)

include hinjective

theorem hashValue_injective {value value' : String}
    (h : hashValue sha256 value = hashValue sha256 value') : value = value' :=
  bytes_injective (hinjective (hexDigest_injective h))

theorem hashBytes_injective {body body' : List UInt8}
    (h : hashBytes sha256 body = hashBytes sha256 body') : body = body' :=
  hinjective (hexDigest_injective h)

-- A signer whose method, path and nonce have no separator signs these fields and no others.
theorem signed_fields_eq {tokenHash tokenHash' method method' path path' nonce nonce' : String}
    {timestamp timestamp' : Int64} {bodyHash bodyHash' : String}
    (htoken : '|' ∉ tokenHash.toList) (hmethod : '|' ∉ method.toList) (hpath : '|' ∉ path.toList)
    (hnonce : '|' ∉ nonce.toList) (hbody : '|' ∉ bodyHash.toList)
    (h : computeDaemonSignature sha256 tokenHash' method' path' timestamp' nonce' bodyHash' =
      computeDaemonSignature sha256 tokenHash method path timestamp nonce bodyHash) :
    tokenHash' = tokenHash ∧ method' = method ∧ path' = path ∧ timestamp' = timestamp ∧
      nonce' = nonce ∧ bodyHash' = bodyHash := by
  have htext := bytes_injective (hinjective (hexDigest_injective h))
  have hjoined : ['|'].intercalate [tokenHash'.toList, method'.toList, path'.toList,
      (toString timestamp').toList, nonce'.toList, bodyHash'.toList] =
      ['|'].intercalate [tokenHash.toList, method.toList, path.toList,
        (toString timestamp).toList, nonce.toList, bodyHash.toList] := by
    have hchars := congrArg String.toList htext
    have hbar : "|".toList = ['|'] := rfl
    simpa only [String.toList_append, hbar, List.intercalate_cons_cons,
      List.intercalate_singleton, List.append_assoc] using hchars
  have hfree : ∀ field ∈ [tokenHash.toList, method.toList, path.toList, (toString timestamp).toList,
      nonce.toList, bodyHash.toList], '|' ∉ field := by
    simp only [List.mem_cons, List.not_mem_nil, or_false, forall_eq_or_imp, forall_eq]
    exact ⟨htoken, hmethod, hpath, separator_not_mem_toString timestamp, hnonce, hbody⟩
  have hfields := Delimited.intercalate_inj_of_not_mem hfree (by rfl) hjoined
  simp only [List.cons.injEq, String.toList_inj, and_true] at hfields
  obtain ⟨h₁, h₂, h₃, h₄, h₅, h₆⟩ := hfields
  exact ⟨h₁, h₂, h₃, toString_injective h₄, h₅, h₆⟩

end Injective

section Tabulated

-- The 32 bytes of a digest, from the number that they are in base 256.
def digestOf (value : Nat) : List UInt8 :=
  (List.range 32).map fun place => UInt8.ofNat (value / 256 ^ (31 - place))

-- SHA-256 on the inputs of a table, and longer than any digest elsewhere.
def tabulated (digests : List (List UInt8 × List UInt8)) (input : List UInt8) : List UInt8 :=
  match digests.find? fun sample => sample.1 = input with
  | some sample => sample.2
  | none => input ++ List.replicate 33 0

theorem tabulated_ne_nil {digests : List (List UInt8 × List UInt8)}
    (hlengths : ∀ sample ∈ digests, sample.2.length = 32) (input : List UInt8) :
    tabulated digests input ≠ [] := by
  rw [tabulated]
  split
  · rename_i sample hsample
    have hlength := hlengths sample (List.mem_of_find?_eq_some hsample)
    intro hnil
    simp [hnil] at hlength
  · simp

theorem tabulated_injective {digests : List (List UInt8 × List UInt8)}
    (hlengths : ∀ sample ∈ digests, sample.2.length = 32)
    (hinjective : ∀ sample ∈ digests, ∀ sample' ∈ digests,
      sample.2 = sample'.2 → sample.1 = sample'.1) : Function.Injective (tabulated digests) := by
  intro input input' h
  simp only [tabulated] at h
  cases hsample : digests.find? fun sample => sample.1 = input with
  | some sample =>
      have hlength := hlengths sample (List.mem_of_find?_eq_some hsample)
      cases hsample' : digests.find? fun sample => sample.1 = input' with
      | some sample' =>
          rw [hsample, hsample'] at h
          have hsame := hinjective sample (List.mem_of_find?_eq_some hsample) sample'
            (List.mem_of_find?_eq_some hsample') h
          have hinput := List.find?_some hsample
          have hinput' := List.find?_some hsample'
          simp only [decide_eq_true_eq] at hinput hinput'
          rw [← hinput, ← hinput', hsame]
      | none =>
          rw [hsample, hsample'] at h
          have hlong := congrArg List.length h
          simp only [List.length_append, List.length_replicate] at hlong
          omega
  | none =>
      cases hsample' : digests.find? fun sample => sample.1 = input' with
      | some sample' =>
          have hlength := hlengths sample' (List.mem_of_find?_eq_some hsample')
          rw [hsample, hsample'] at h
          have hlong := congrArg List.length h
          simp only [List.length_append, List.length_replicate] at hlong
          omega
      | none =>
          rw [hsample, hsample'] at h
          exact List.append_cancel_right h

end Tabulated

end Mizan.Daemon
