import Mathlib.Algebra.Group.Nat.Defs
import Mathlib.Data.List.TakeWhile

/-!
# Device ids

The server takes a device id apart in two ways. `HwipServiceImpl::parse_device_id` splits
it at its first slash and wants something on both sides. The plugins, the management
service and the telemetry service read the index behind the last slash, each with its own
copy of one function, and `std::from_chars` stops at the first character that is no digit.

Strings are lists of characters. A slash and the digits are single bytes of UTF-8 and no
part of other characters, so that it does not matter whether bytes or characters are
counted.
-/

namespace Deepspan

/-! ## Strings -/

/-- `std::string_view::find('/')`. -/
def findSlash (s : List Char) : Option Nat := s.findIdx? (· == '/')

/-- `std::string_view::rfind('/')`. -/
def rfindSlash (s : List Char) : Option Nat :=
  (s.reverse.findIdx? (· == '/')).map fun k => s.length - 1 - k

/-- `std::to_string` of a non-negative number. -/
def decimal (n : Nat) : List Char := Nat.toDigits 10 n

/-- `INT_MAX`. -/
def intMax : Nat := 2 ^ 31 - 1

/-- `std::from_chars(first, last, idx)` with an `int`: an optional minus sign and as many
digits as there are. `none` is an error code (no digit, or out of range), which leaves the
target alone. What stands behind the digits is not looked at. -/
def fromChars (s : List Char) : Option Int :=
  let negative := s.head? == some '-'
  let digits := (if negative then s.tail else s).takeWhile Char.isDigit
  let magnitude := Nat.ofDigitChars 10 digits 0
  if digits = [] then none
  else if negative then if magnitude ≤ intMax + 1 then some (-magnitude) else none
  else if magnitude ≤ intMax then some magnitude else none

/-! ## The parsers -/

/-- `HwipServiceImpl::parse_device_id`: the type and the index. -/
def parseDeviceId (deviceId : List Char) : Option (List Char × List Char) :=
  match findSlash deviceId with
  | none => none
  | some slash =>
    if slash = 0 ∨ slash = deviceId.length - 1 then none
    else some (deviceId.take slash, deviceId.drop (slash + 1))

/-- The body of the four copies below. -/
def indexBehindSlash (deviceId : List Char) : Int :=
  match rfindSlash deviceId with
  | none => -1
  | some slash => (fromChars (deviceId.drop (slash + 1))).getD (-1)

/-- `parse_index` of `accel_plugin.cpp`. -/
def accelParseIndex : List Char → Int := indexBehindSlash

/-- `parse_index` of `crc32_plugin.cpp`. -/
def crc32ParseIndex : List Char → Int := indexBehindSlash

/-- `parse_device_index` of `mgmt_service.cpp`. -/
def mgmtParseDeviceIndex : List Char → Int := indexBehindSlash

/-- `parse_device_index` of `telemetry_service.cpp`. -/
def telemetryParseDeviceIndex : List Char → Int := indexBehindSlash

/-! ## What they do -/

theorem findSlash_append {type : List Char} (h : '/' ∉ type) (rest : List Char) :
    findSlash (type ++ '/' :: rest) = some type.length := by
  have hnone : type.findIdx? (· == '/') = none := by
    rw [List.findIdx?_eq_none_iff]
    intro c hc
    exact beq_false_of_ne fun heq => h (heq ▸ hc)
  rw [findSlash, List.findIdx?_append, hnone, List.findIdx?_cons]
  simp

theorem rfindSlash_append (type : List Char) {rest : List Char} (h : '/' ∉ rest) :
    rfindSlash (type ++ '/' :: rest) = some type.length := by
  have hback := findSlash_append (fun hmem => h (List.mem_reverse.mp hmem)) type.reverse
  have hrev : (type ++ '/' :: rest).reverse = rest.reverse ++ '/' :: type.reverse := by
    simp
  rw [rfindSlash, hrev, show List.findIdx? (· == '/') (rest.reverse ++ '/' :: type.reverse) =
    some rest.reverse.length from hback]
  simp only [Option.map_some, List.length_append, List.length_cons, List.length_reverse]
  congr 1
  omega

theorem parseDeviceId_append {type : List Char} (h : '/' ∉ type) (rest : List Char) :
    parseDeviceId (type ++ '/' :: rest) =
      if type = [] ∨ rest = [] then none else some (type, rest) := by
  have hlast : type.length = (type ++ '/' :: rest).length - 1 ↔ rest = [] := by
    rw [List.length_append, List.length_cons, ← List.length_eq_zero_iff]
    omega
  simp only [parseDeviceId, findSlash_append h, List.length_eq_zero_iff, hlast]
  simp

theorem indexBehindSlash_append (type : List Char) {rest : List Char} (h : '/' ∉ rest) :
    indexBehindSlash (type ++ '/' :: rest) = (fromChars rest).getD (-1) := by
  rw [indexBehindSlash, rfindSlash_append type h]
  simp

/-! ## Decimal indices -/

theorem isDigit_decimal {n : Nat} {c : Char} (h : c ∈ decimal n) : c.isDigit = true :=
  Nat.isDigit_of_mem_toDigits (by decide) (by decide) h

theorem slash_notMem_decimal (n : Nat) : '/' ∉ decimal n := by
  intro h
  exact absurd (isDigit_decimal h) (by decide)

theorem decimal_ne_nil (n : Nat) : decimal n ≠ [] := Nat.toDigits_ne_nil

/-- `std::from_chars` reads back what `std::to_string` writes, if it fits an `int`. -/
theorem fromChars_decimal (n : Nat) :
    fromChars (decimal n) = if n ≤ intMax then some (n : Int) else none := by
  have hdigits : (decimal n).takeWhile Char.isDigit = decimal n :=
    List.takeWhile_eq_self_iff.mpr fun _ hc => isDigit_decimal hc
  have hminus : ((decimal n).head? == some '-') = false := by
    apply beq_false_of_ne
    intro heq
    exact absurd (isDigit_decimal (List.mem_of_head? heq)) (by decide)
  have hvalue : Nat.ofDigitChars 10 (decimal n) 0 = n := Nat.ofDigitChars_ten_toDigits
  simp only [fromChars, hminus, Bool.false_eq_true, if_false, hdigits, decimal_ne_nil, hvalue]

/-- The id of device `n` of a type, as `enumerate_devices` writes it. -/
def deviceIdOf (type : List Char) (n : Nat) : List Char := type ++ '/' :: decimal n

theorem decimal_injective : Function.Injective decimal := by
  intro m n h
  have hvalue : Nat.ofDigitChars 10 (decimal m) 0 = Nat.ofDigitChars 10 (decimal n) 0 := by
    rw [h]
  rwa [decimal, decimal, Nat.ofDigitChars_ten_toDigits, Nat.ofDigitChars_ten_toDigits] at hvalue

theorem deviceIdOf_injective (type : List Char) : Function.Injective (deviceIdOf type) := by
  intro m n h
  exact decimal_injective (List.cons.inj (List.append_cancel_left h)).2

theorem indexBehindSlash_deviceIdOf (type : List Char) (n : Nat) :
    indexBehindSlash (deviceIdOf type n) = if n ≤ intMax then (n : Int) else -1 := by
  rw [deviceIdOf, indexBehindSlash_append type (slash_notMem_decimal n), fromChars_decimal]
  split <;> rfl

theorem index_deviceIdOf (type : List Char) {n : Nat} (hn : n ≤ intMax) :
    indexBehindSlash (deviceIdOf type n) = n := by
  rw [indexBehindSlash_deviceIdOf, if_pos hn]

theorem index_deviceIdOf_nonneg (type : List Char) {n : Nat} (hn : n ≤ intMax) :
    0 ≤ indexBehindSlash (deviceIdOf type n) := by
  rw [index_deviceIdOf type hn]
  exact Int.natCast_nonneg n

/-- What `parse_device_id` takes for the type: everything before the first slash. -/
def typePart (type : List Char) : List Char := type.takeWhile (· != '/')

theorem typePart_append {front : List Char} (h : '/' ∉ front) (back : List Char) :
    typePart (front ++ '/' :: back) = front := by
  have hall : ∀ c ∈ front, (c != '/') = true := by
    intro c hc
    exact bne_iff_ne.mpr fun heq => h (heq ▸ hc)
  rw [typePart, List.takeWhile_append_of_pos hall]
  simp

theorem parseDeviceId_deviceIdOf (type : List Char) (n : Nat) :
    (parseDeviceId (deviceIdOf type n)).map Prod.fst =
      if typePart type = [] then none else some (typePart type) := by
  -- the first slash is either one of the type's own or the one before the index
  have hsplit : ∃ rest, deviceIdOf type n = typePart type ++ '/' :: rest ∧ '/' ∉ typePart type ∧
      rest ≠ [] := by
    by_cases hslash : '/' ∈ type
    · obtain ⟨front, back, rfl, hfront⟩ := List.eq_append_cons_of_mem hslash
      refine ⟨back ++ '/' :: decimal n, ?_, ?_, by simp⟩
      · rw [typePart_append hfront, deviceIdOf, List.append_assoc, List.cons_append]
      · rw [typePart_append hfront]
        exact hfront
    · have htype : typePart type = type :=
        List.takeWhile_eq_self_iff.mpr fun c hc => bne_iff_ne.mpr fun heq => hslash (heq ▸ hc)
      rw [htype]
      exact ⟨decimal n, rfl, hslash, decimal_ne_nil n⟩
  obtain ⟨rest, hid, hnot, hrest⟩ := hsplit
  rw [hid, parseDeviceId_append hnot]
  by_cases htype : typePart type = []
  · simp [htype]
  · simp [htype, hrest]

end Deepspan
