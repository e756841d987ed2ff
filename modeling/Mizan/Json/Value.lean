import Mathlib.Data.List.Basic
import Mathlib.Order.Lattice

namespace Mizan.Json

inductive Number where
  | posInt (n : UInt64)
  | negInt (n : Int64)
  | float (bits : UInt64)
deriving DecidableEq, Repr

inductive Value where
  | null
  | bool (b : Bool)
  | number (n : Number)
  | string (text : String)
  | array (elements : List Value)
  -- the members in the order in which the writer writes them
  | object (members : List (String × Value))
deriving Repr

namespace Value

def asObject : Value → Option (List (String × Value))
  | .object members => some members
  | _ => none

-- The names of the members of an object.
def names : Value → List String
  | .object members => members.map Prod.fst
  | _ => []

-- Induction for values: what holds of everything that an array or an object holds holds of it.
theorem nested {motive : Value → Prop} (null : motive .null) (bool : ∀ b, motive (.bool b))
    (number : ∀ n, motive (.number n)) (string : ∀ text, motive (.string text))
    (array : ∀ elements, (∀ value ∈ elements, motive value) → motive (.array elements))
    (object : ∀ members, (∀ name value, (name, value) ∈ members → motive value) →
      motive (.object members)) (value : Value) : motive value := by
  refine Value.rec (motive_1 := motive)
    (motive_2 := fun elements => ∀ value ∈ elements, motive value)
    (motive_3 := fun members => ∀ name value, (name, value) ∈ members → motive value)
    (motive_4 := fun member => motive member.2) null bool number string array object ?_ ?_ ?_ ?_ ?_
    value
  · simp
  · intro head rest hhead hrest value hvalue
    rcases List.mem_cons.mp hvalue with rfl | hvalue
    · exact hhead
    · exact hrest value hvalue
  · simp
  · intro head rest hhead hrest name value hvalue
    rcases List.mem_cons.mp hvalue with rfl | hvalue
    · exact hhead
    · exact hrest name value hvalue
  · intro name value hvalue
    exact hvalue

end Value

-- A value is inside itself and inside whatever holds a value it is inside of.
inductive Within (inner : Value) : Value → Prop
  | self : Within inner inner
  | element {elements : List Value} {value : Value} (hvalue : value ∈ elements)
      (hinner : Within inner value) : Within inner (.array elements)
  | member {members : List (String × Value)} {name : String} {value : Value}
      (hvalue : (name, value) ∈ members) (hinner : Within inner value) :
      Within inner (.object members)

mutual

-- All the values inside a value.
def Value.parts : Value → List Value
  | .array elements => .array elements :: partsOfElements elements
  | .object members => .object members :: partsOfMembers members
  | .null => [.null]
  | .bool b => [.bool b]
  | .number n => [.number n]
  | .string text => [.string text]

def partsOfElements : List Value → List Value
  | [] => []
  | value :: rest => value.parts ++ partsOfElements rest

def partsOfMembers : List (String × Value) → List Value
  | [] => []
  | (_, value) :: rest => value.parts ++ partsOfMembers rest

end

mutual

-- How many arrays and objects are open at once while the value is read.
def Value.depth : Value → Nat
  | .array elements => depthOfElements elements + 1
  | .object members => depthOfMembers members + 1
  | .null => 0
  | .bool _ => 0
  | .number _ => 0
  | .string _ => 0

def depthOfElements : List Value → Nat
  | [] => 0
  | value :: rest => max value.depth (depthOfElements rest)

def depthOfMembers : List (String × Value) → Nat
  | [] => 0
  | (_, value) :: rest => max value.depth (depthOfMembers rest)

end

variable {inner outer : Value}

theorem mem_partsOfElements {elements : List Value} :
    inner ∈ partsOfElements elements ↔ ∃ value ∈ elements, inner ∈ value.parts := by
  induction elements with
  | nil => simp [partsOfElements]
  | cons value rest ih => simp [partsOfElements, ih]

theorem mem_partsOfMembers {members : List (String × Value)} :
    inner ∈ partsOfMembers members ↔
      ∃ name value, (name, value) ∈ members ∧ inner ∈ value.parts := by
  induction members with
  | nil => simp [partsOfMembers]
  | cons member rest ih =>
    obtain ⟨name, value⟩ := member
    rw [partsOfMembers, List.mem_append, ih]
    constructor
    · rintro (hhead | ⟨name', value', hmem, hinner⟩)
      · exact ⟨name, value, by simp, hhead⟩
      · exact ⟨name', value', by simp [hmem], hinner⟩
    · rintro ⟨name', value', hmem, hinner⟩
      rcases List.mem_cons.mp hmem with heq | hmem
      · obtain ⟨rfl, rfl⟩ := Prod.mk.inj heq
        exact Or.inl hinner
      · exact Or.inr ⟨name', value', hmem, hinner⟩

theorem self_mem_parts (value : Value) : value ∈ value.parts := by
  cases value <;> simp [Value.parts]

-- By induction on the containment one way and on the value the other.
theorem mem_parts_iff : inner ∈ outer.parts ↔ Within inner outer := by
  constructor
  · intro hinner
    induction outer using Value.nested with
    | null => simp_all [Value.parts, Within.self]
    | bool b => simp_all [Value.parts, Within.self]
    | number n => simp_all [Value.parts, Within.self]
    | string text => simp_all [Value.parts, Within.self]
    | array elements ih =>
      rcases List.mem_cons.mp hinner with rfl | hinner
      · exact .self
      · obtain ⟨value, hvalue, hinner⟩ := mem_partsOfElements.mp hinner
        exact .element hvalue (ih value hvalue hinner)
    | object members ih =>
      rcases List.mem_cons.mp hinner with rfl | hinner
      · exact .self
      · obtain ⟨name, value, hvalue, hinner⟩ := mem_partsOfMembers.mp hinner
        exact .member hvalue (ih name value hvalue hinner)
  · intro hinner
    induction hinner with
    | self => exact self_mem_parts inner
    | element hvalue _ ih =>
      rw [Value.parts, List.mem_cons, mem_partsOfElements]
      exact Or.inr ⟨_, hvalue, ih⟩
    | member hvalue _ ih =>
      rw [Value.parts, List.mem_cons, mem_partsOfMembers]
      exact Or.inr ⟨_, _, hvalue, ih⟩

-- No object at any depth has a member of one of the names.
def Free (forbidden : List String) (outer : Value) : Prop :=
  ∀ inner, Within inner outer → ∀ name ∈ forbidden, name ∉ inner.names

theorem free_iff_parts {forbidden : List String} :
    Free forbidden outer ↔ ∀ inner ∈ outer.parts, ∀ name ∈ forbidden, name ∉ inner.names := by
  simp only [Free, mem_parts_iff]

instance (forbidden : List String) (outer : Value) : Decidable (Free forbidden outer) :=
  decidable_of_iff _ free_iff_parts.symm

-- An object is free of the names where it has none itself and what it holds is free of them.
theorem free_object_iff {forbidden : List String} {members : List (String × Value)} :
    Free forbidden (.object members) ↔ (∀ name ∈ forbidden, name ∉ members.map Prod.fst) ∧
      ∀ name value, (name, value) ∈ members → Free forbidden value := by
  constructor
  · intro hfree
    exact ⟨hfree _ .self, fun _ _ hvalue inner hinner => hfree inner (.member hvalue hinner)⟩
  · rintro ⟨hself, hmembers⟩ inner hinner
    cases hinner with
    | self => exact hself
    | member hvalue hinner => exact hmembers _ _ hvalue inner hinner

-- A writer and a reader of values. The reader opens less arrays and objects at once than its limit
-- and takes an object that begins with one of its reserved names for something else.
structure Codec where
  toString : Value → Except String String
  fromStr : String → Except String Value
  limit : Nat
  reserved : List String

namespace Codec

variable (codec : Codec)

def ReadsBack (value : Value) : Prop :=
  ∃ text, codec.toString value = .ok text ∧ codec.fromStr text = .ok value

-- The reader may round a number with a fraction that it reads.
def Keeps : Value → Prop
  | .number (.float bits) => codec.ReadsBack (.number (.float bits))
  | .object ((name, _) :: _) => name ∉ codec.reserved
  | _ => True

def Readable (value : Value) : Prop :=
  value.depth < codec.limit ∧ ∀ inner, Within inner value → codec.Keeps inner

-- Every value can be written, and the text is read as that value when it is readable.
def Faithful (value : Value) : Prop :=
  ∃ text, codec.toString value = .ok text ∧
    (codec.fromStr text = .ok value ↔ codec.Readable value)

end Codec

end Mizan.Json
