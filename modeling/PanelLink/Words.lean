/-
**Typed word slices.**

A bus payload is a run of elements of one memory size, and it keeps that size until a link decides
how the elements travel.

* `Words.ofList`: every value is truncated to the element size, so `Words.bounded` holds by
  construction;
* `Words.split`: the two parts joined are the whole;
* `Words.overwrite`: the values received so far replace the front of a buffer, and the rest of the
  buffer stays as it was;
* `Slice`: a run where it lies in memory, and `Slice.consecutive`: runs that lie one behind the other.
-/

namespace PanelLink

/-- The memory size of one element. -/
inductive Element where
  | byte
  | half
  | word
  deriving DecidableEq, Repr, Inhabited

namespace Element

def bytes : Element → Nat
  | byte => 1
  | half => 2
  | word => 4

def bits (element : Element) : Nat :=
  8 * element.bytes

/-- The first value that an element cannot hold. -/
def modulus : Element → Nat
  | byte => 256
  | half => 65536
  | word => 4294967296

/-- The low bits of a value, as many as the element holds. -/
def truncate (element : Element) (value : Nat) : Nat :=
  value % element.modulus

theorem modulus_eq_shiftLeft (element : Element) : element.modulus = 1 <<< element.bits := by
  cases element <;> decide

theorem bytes_pos (element : Element) : 0 < element.bytes := by
  cases element <;> decide

theorem modulus_pos (element : Element) : 0 < element.modulus := by
  cases element <;> decide

theorem truncate_lt (element : Element) (value : Nat) : element.truncate value < element.modulus :=
  Nat.mod_lt _ element.modulus_pos

theorem truncate_of_lt {element : Element} {value : Nat} (small : value < element.modulus) :
    element.truncate value = value :=
  Nat.mod_eq_of_lt small

end Element

/-- A run of elements of one size, each value within the size. -/
@[ext]
structure Words where
  element : Element
  values : List Nat
  bounded : ∀ value ∈ values, value < element.modulus
  deriving DecidableEq, Repr

namespace Words

/-- The run of the given values, each truncated to the element size. -/
def ofList (element : Element) (values : List Nat) : Words where
  element := element
  values := values.map element.truncate
  bounded := by
    intro value member
    obtain ⟨source, -, rfl⟩ := List.mem_map.mp member
    exact element.truncate_lt source

@[simp] theorem element_ofList (element : Element) (values : List Nat) :
    (ofList element values).element = element :=
  rfl

@[simp] theorem values_ofList (element : Element) (values : List Nat) :
    (ofList element values).values = values.map element.truncate :=
  rfl

/-- A run survives being rebuilt from its own values. -/
theorem ofList_values (words : Words) : ofList words.element words.values = words := by
  ext1
  · rfl
  · exact (List.map_congr_left fun value member =>
      Element.truncate_of_lt (words.bounded value member)).trans (List.map_id _)

def length (words : Words) : Nat :=
  words.values.length

def isEmpty (words : Words) : Bool :=
  words.values.isEmpty

/-- Bytes that the run takes in memory. -/
def byteLength (words : Words) : Nat :=
  words.length * words.element.bytes

def get? (words : Words) (index : Nat) : Option Nat :=
  words.values[index]?

def take (words : Words) (count : Nat) : Words where
  element := words.element
  values := words.values.take count
  bounded := fun value member => words.bounded value (List.mem_of_mem_take member)

/-- What is left of a run after its first elements. -/
def drop (words : Words) (count : Nat) : Words where
  element := words.element
  values := words.values.drop count
  bounded := fun value member => words.bounded value (List.mem_of_mem_drop member)

/-- A run cut in two; a position past the end leaves the second part empty. -/
def split (words : Words) (position : Nat) : Words × Words :=
  (words.take position, words.drop position)

/-- The parts of a cut, joined, are the whole. -/
theorem values_split (words : Words) (position : Nat) :
    (words.split position).1.values ++ (words.split position).2.values = words.values :=
  List.take_append_drop position words.values

/-- The elements from `first` up to but not including `last`, or nothing if they are not all
there. -/
def slice? (words : Words) (first last : Nat) : Option Words :=
  if first ≤ last ∧ last ≤ words.length then some ((words.take last).drop first) else none

/-- The run with one element replaced by a truncated value, or nothing if there is no such
element. -/
def set? (words : Words) (index value : Nat) : Option Words :=
  if index < words.length then some (ofList words.element (words.values.set index value)) else none

/-- The run with its front replaced by the given values, as far as it reaches. -/
def overwrite (words : Words) (received : List Nat) : Words :=
  ofList words.element (received.take words.length ++ words.values.drop received.length)

/-- Nothing received leaves the run as it was. -/
@[simp] theorem overwrite_nil (words : Words) : words.overwrite [] = words := by
  rw [overwrite, List.take_nil]
  exact words.ofList_values

/-- As many values as the run has fill it. -/
theorem overwrite_all {words : Words} {received : List Nat}
    (all : received.length = words.length) :
    (words.overwrite received).values = received.map words.element.truncate := by
  have none : words.values.drop received.length = [] := by
    rw [all]
    exact List.drop_length
  rw [overwrite, values_ofList, ← all, List.take_length, none, List.append_nil]

end Words

/-- A run where it lies in memory. -/
structure Slice where
  /-- Where its first byte lies. -/
  address : Nat
  words : Words
  deriving DecidableEq, Repr

namespace Slice

/-- Runs that lie one behind the other, the first one at an address. -/
def consecutive : Nat → List Words → List Slice
  | _, [] => []
  | address, words :: rest => ⟨address, words⟩ :: consecutive (address + words.byteLength) rest

@[simp] theorem map_words_consecutive (address : Nat) (runs : List Words) :
    (consecutive address runs).map words = runs := by
  induction runs generalizing address with
  | nil => rfl
  | cons run runs ih => exact congrArg (run :: ·) (ih _)

end Slice

end PanelLink
