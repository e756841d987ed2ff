import Mathlib.Tactic.Common

namespace Mizan

structure ChatMessage where
  role : String
  content : String
  deriving DecidableEq, Repr

structure ChatRequest where
  model : String
  messages : List ChatMessage
  stream : Bool := false
  maxTokens : Option UInt64 := none
  deriving DecidableEq, Repr

structure TokenUsage where
  promptTokens : UInt64
  completionTokens : UInt64
  totalTokens : UInt64
  estimated : Bool
  deriving DecidableEq, Repr

structure ChatResponse where
  provider : String
  model : String
  content : String
  usage : Option TokenUsage
  deriving DecidableEq, Repr

structure ChatStreamChunk where
  index : UInt64
  delta : String
  finishReason : Option String
  usage : Option TokenUsage
  deriving DecidableEq, Repr

end Mizan
