/-! # Hexadecimal text

Digits, numbers of a fixed width and byte strings, written in lower case and read in either case.
-/

namespace Inventory

abbrev Bytes := List UInt8

namespace Text

def hexDigits : List Char :=
  ['0', '1', '2', '3', '4', '5', '6', '7', '8', '9', 'a', 'b', 'c', 'd', 'e', 'f']

def hexDigit (n : Nat) : Char :=
  hexDigits.getD (n % 16) '0'

def hexValue? (c : Char) : Option Nat :=
  if '0' ≤ c ∧ c ≤ '9' then some (c.toNat - '0'.toNat)
  else if 'a' ≤ c ∧ c ≤ 'f' then some (c.toNat - 'a'.toNat + 10)
  else if 'A' ≤ c ∧ c ≤ 'F' then some (c.toNat - 'A'.toNat + 10)
  else none

theorem hexValue?_hexDigit (n : Nat) : hexValue? (hexDigit n) = some (n % 16) := by
  have : ∀ d : Fin 16, hexValue? (hexDigits.getD d.val '0') = some d.val := by decide
  exact this ⟨n % 16, Nat.mod_lt _ (by decide)⟩

theorem hexDigit_mem (n : Nat) : hexDigit n ∈ hexDigits := by
  have : ∀ d : Fin 16, hexDigits.getD d.val '0' ∈ hexDigits := by decide
  exact this ⟨n % 16, Nat.mod_lt _ (by decide)⟩

def hexFixed : (width : Nat) → Nat → List Char
  | 0, _ => []
  | width + 1, n => hexFixed width (n / 16) ++ [hexDigit n]

@[simp] theorem length_hexFixed (width n : Nat) : (hexFixed width n).length = width := by
  induction width generalizing n with
  | zero => rfl
  | succ width ih => simp [hexFixed, ih]

def hexShort (n : Nat) : List Char :=
  if n < 16 then [hexDigit n] else hexShort (n / 16) ++ [hexDigit n]
termination_by n
decreasing_by omega

def hexNumber? (cs : List Char) : Option Nat :=
  cs.foldlM (fun value c => (hexValue? c).map (value * 16 + ·)) 0

def hexOfBytes (bytes : Bytes) : String :=
  String.ofList (bytes.flatMap fun b => hexFixed 2 b.toNat)

theorem mem_hexDigits_of_mem_hexFixed {width n : Nat} {c : Char} (h : c ∈ hexFixed width n) : c ∈ hexDigits := by
  induction width generalizing n with
  | zero => cases h
  | succ width ih =>
    rcases List.mem_append.1 h with h | h
    · exact ih h
    · obtain rfl := List.mem_singleton.1 h
      exact hexDigit_mem n

theorem length_hexOfBytes (bytes : Bytes) : (hexOfBytes bytes).length = 2 * bytes.length := by
  rw [hexOfBytes, String.length_ofList]
  induction bytes with
  | nil => rfl
  | cons b rest ih =>
    rw [List.flatMap_cons, List.length_append, length_hexFixed, ih, List.length_cons]
    omega

theorem mem_hexDigits_of_mem_hexOfBytes {bytes : Bytes} {c : Char} (h : c ∈ (hexOfBytes bytes).toList) :
    c ∈ hexDigits := by
  rw [hexOfBytes, String.toList_ofList] at h
  obtain ⟨b, -, hc⟩ := List.mem_flatMap.1 h
  exact mem_hexDigits_of_mem_hexFixed hc

def bytesOfHexChars? : List Char → Option Bytes
  | [] => some []
  | [_] => none
  | high :: low :: rest => do
    let h ← hexValue? high
    let l ← hexValue? low
    let more ← bytesOfHexChars? rest
    return UInt8.ofNat (16 * h + l) :: more

def bytesOfHex? (s : String) : Option Bytes :=
  bytesOfHexChars? s.toList

theorem bytesOfHexChars?_flatMap (bytes : Bytes) :
    bytesOfHexChars? (bytes.flatMap fun b => hexFixed 2 b.toNat) = some bytes := by
  induction bytes with
  | nil => rfl
  | cons b rest ih =>
    have hb : b.toNat < 256 := b.toNat_lt
    have hval : UInt8.ofNat (16 * (b.toNat / 16 % 16) + b.toNat % 16) = b := by
      rw [show 16 * (b.toNat / 16 % 16) + b.toNat % 16 = b.toNat by omega, UInt8.ofNat_toNat]
    rw [show (b :: rest).flatMap (fun b => hexFixed 2 b.toNat) =
      hexDigit (b.toNat / 16) :: hexDigit b.toNat :: rest.flatMap fun b => hexFixed 2 b.toNat by
        simp [hexFixed]]
    simp only [bytesOfHexChars?, hexValue?_hexDigit, ih]
    exact congrArg (fun x => some (x :: rest)) hval

end Text

end Inventory
