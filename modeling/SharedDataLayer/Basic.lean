import Mathlib.Data.List.Lex
import SharedDataLayer.Spec.OrdMap

/-!
# The data model of the shared data layer

Keys, data and namespaces are byte strings: a `std::string` and a `std::vector<uint8_t>` may hold
any byte, NUL included, and compare byte by byte as unsigned values. `DataMap` and `Keys` are the
ordered containers of the API (`AsyncStorage::DataMap`, `AsyncStorage::Keys`): the order in which
they are iterated is the order in which arguments are put into a command.
-/

namespace Sdl

open Spec

abbrev Byte := Fin 256

/-- A `std::string` or a `std::vector<uint8_t>`. -/
abbrev Bytes := List Byte

/-- The byte of a character literal of the source. -/
def chr (c : Char) : Byte := Fin.ofNat 256 c.toNat

/-- The bytes of a string literal of the source. -/
def str (s : String) : Bytes := s.toList.map chr

abbrev Namespace := Bytes
abbrev Key := Bytes
abbrev Data := Bytes

/-- `std::map<Key, Data>`. -/
abbrev DataMap := OrdMap Key Data

/-- `std::set<Key>`. -/
abbrev Keys := OrdSet Key

/-- A fallible computation succeeds through both of its parts. -/
theorem bind_ok_iff {ε α β : Type} {x : Except ε α} {f : α → Except ε β} {b : β} :
    (x >>= f) = .ok b ↔ ∃ a, x = .ok a ∧ f a = .ok b := by
  cases x with
  | error e => exact ⟨fun h => (by cases h), fun ⟨a, ha, _⟩ => (by cases ha)⟩
  | ok a => exact ⟨fun h => ⟨a, rfl, h⟩, fun ⟨a', ha, h⟩ => (by cases ha; exact h)⟩

end Sdl
