import Mizan.Core.Types

namespace Mizan

def REDACTED : String := "[REDACTED]"

def SENSITIVE_PREFIXES : List String := ["mizan_sk_", "mizan_sess_", "sk-", "Bearer"]

def matchingSensitivePrefix (value : List Char) : Option String :=
  SENSITIVE_PREFIXES.find? fun sensitive => sensitive.toList.isPrefixOf value

-- The comma, the semicolon, the two quotes and the three closing brackets.
def isSecretBoundary (character : Char) : Bool :=
  [0x2C, 0x3B, 0x22, 0x27, 0x29, 0x5D, 0x7D].contains character.toNat

-- `skip` characters of a prefix are still to pass, then the secret up to its boundary.
def redactFrom : (skip : Nat) → (secret : Bool) → List Char → List Char
  | _, _, [] => []
  | skip + 1, _, _ :: rest => redactFrom skip true rest
  | 0, secret, character :: rest =>
      if secret && !isSecretBoundary character then redactFrom 0 true rest
      else
        match matchingSensitivePrefix (character :: rest) with
        | some sensitive => REDACTED.toList ++ redactFrom (sensitive.length - 1) true rest
        | none => character :: redactFrom 0 false rest

def redactSegment (segment : List Char) : List Char := redactFrom 0 false segment

def redactText : (segment : List Char) → List Char → List Char
  | segment, [] => redactSegment segment
  | segment, character :: rest =>
      if isWhitespace character then redactSegment segment ++ character :: redactText [] rest
      else redactText (segment ++ [character]) rest

def redactForLogs (value : String) : String := String.ofList (redactText [] value.toList)

end Mizan
