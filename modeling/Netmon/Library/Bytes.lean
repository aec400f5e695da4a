import Mathlib.Data.List.Induction
import Mathlib.Algebra.GroupWithZero.Nat

/-! Byte strings: fixed-width words of either byte order, and reads that panic
outside the slice as an indexing expression does. -/
namespace Netmon.Library

abbrev Bytes := List UInt8

inductive Panic where
  | outOfBounds
  | overflow
deriving DecidableEq, Repr

def beNat (word : Bytes) : Nat := word.foldl (fun value byte => value * 256 + byte.toNat) 0

def beBytes : Nat → Nat → Bytes
  | 0, _ => []
  | width + 1, n => beBytes width (n / 256) ++ [UInt8.ofNat (n % 256)]

inductive Endian where
  | little
  | big
deriving DecidableEq, Repr

/-- The value of a word in the byte order of the host. -/
def Endian.value : Endian → Bytes → Nat
  | .little, word => beNat word.reverse
  | .big, word => beNat word

def Endian.bytes : Endian → Nat → Nat → Bytes
  | .little, width, n => (beBytes width n).reverse
  | .big, width, n => beBytes width n

theorem beNat_append (word : Bytes) (byte : UInt8) : beNat (word ++ [byte]) = beNat word * 256 + byte.toNat := by
  simp [beNat]

@[simp] theorem beBytes_length (width n : Nat) : (beBytes width n).length = width := by
  induction width generalizing n with
  | zero => rfl
  | succ width ih => simp [beBytes, ih]

theorem beNat_lt (word : Bytes) : beNat word < 256 ^ word.length := by
  induction word using List.reverseRecOn with
  | nil => simp [beNat]
  | append_singleton word byte ih =>
    have small := byte.toNat_lt
    rw [beNat_append, List.length_append, List.length_singleton, Nat.pow_succ]
    omega

theorem beNat_beBytes (width n : Nat) (bound : n < 256 ^ width) : beNat (beBytes width n) = n := by
  induction width generalizing n with
  | zero => simp at bound; simp [beBytes, beNat, bound]
  | succ width ih =>
    have front := ih (n / 256) (by rw [Nat.pow_succ] at bound; omega)
    have last : (UInt8.ofNat (n % 256)).toNat = n % 256 := by simp
    rw [beBytes, beNat_append, front, last]
    omega

theorem beBytes_beNat (word : Bytes) : beBytes word.length (beNat word) = word := by
  induction word using List.reverseRecOn with
  | nil => rfl
  | append_singleton word byte ih =>
    have small := byte.toNat_lt
    have front : (beNat word * 256 + byte.toNat) / 256 = beNat word := by omega
    have last : (beNat word * 256 + byte.toNat) % 256 = byte.toNat := by omega
    rw [List.length_append, List.length_singleton, beBytes, beNat_append, front, last, ih, UInt8.ofNat_toNat]

@[simp] theorem Endian.bytes_length (host : Endian) (width n : Nat) : (host.bytes width n).length = width := by
  cases host <;> simp [Endian.bytes]

theorem Endian.value_bytes (host : Endian) (width n : Nat) (bound : n < 256 ^ width) :
    host.value (host.bytes width n) = n := by
  cases host <;> simp [Endian.bytes, Endian.value, beNat_beBytes width n bound]

theorem Endian.value_lt (host : Endian) (word : Bytes) : host.value word < 256 ^ word.length := by
  cases host with
  | little =>
    have reversed := beNat_lt word.reverse
    rw [List.length_reverse] at reversed
    exact reversed
  | big => exact beNat_lt word

theorem Endian.bytes_value (host : Endian) (word : Bytes) : host.bytes word.length (host.value word) = word := by
  cases host with
  | little =>
    have reversed := beBytes_beNat word.reverse
    rw [List.length_reverse] at reversed
    rw [Endian.bytes, Endian.value, reversed, List.reverse_reverse]
  | big => exact beBytes_beNat word

/-- `bytes[i]`. -/
def byteAt (bytes : Bytes) (i : Nat) : Except Panic UInt8 :=
  match bytes[i]? with
  | some byte => .ok byte
  | none => .error .outOfBounds

def window (bytes : Bytes) (start n : Nat) : Bytes := (bytes.drop start).take n

/-- `bytes[start..start + n]`. -/
def sliceAt (bytes : Bytes) (start n : Nat) : Except Panic Bytes :=
  if start + n ≤ bytes.length then .ok (window bytes start n) else .error .outOfBounds

/-- The byte at a place, zero beyond the end. -/
def octet (bytes : Bytes) (i : Nat) : UInt8 := bytes.getD i 0

theorem byteAt_ok {bytes : Bytes} {i : Nat} (inside : i < bytes.length) : byteAt bytes i = .ok (octet bytes i) := by
  simp [byteAt, octet, List.getElem?_eq_getElem inside]

theorem sliceAt_ok {bytes : Bytes} {start n : Nat} (inside : start + n ≤ bytes.length) :
    sliceAt bytes start n = .ok (window bytes start n) := by
  simp [sliceAt, inside]

theorem octet_append_left {front back : Bytes} {i : Nat} (inside : i < front.length) :
    octet (front ++ back) i = octet front i := by
  simp [octet, List.getElem?_append_left inside]

theorem octet_append_right {front back : Bytes} {i : Nat} (after : front.length ≤ i) :
    octet (front ++ back) i = octet back (i - front.length) := by
  simp [octet, List.getElem?_append_right after]

theorem window_length {bytes : Bytes} {start n : Nat} (inside : start + n ≤ bytes.length) :
    (window bytes start n).length = n := by
  simp [window]
  omega

theorem window_window {bytes : Bytes} {start n i m : Nat} (inside : i + m ≤ n) :
    window (window bytes start n) i m = window bytes (start + i) m := by
  have enough : m ≤ n - i := by omega
  simp [window, List.drop_take, List.take_take, Nat.min_eq_left enough]

theorem window_append_right {front back : Bytes} {start n : Nat} (after : front.length ≤ start) :
    window (front ++ back) start n = window back (start - front.length) n := by
  simp [window, List.drop_append, List.drop_eq_nil_of_le after]

theorem window_head {word back : Bytes} {n : Nat} (size : word.length = n) : window (word ++ back) 0 n = word := by
  subst size
  simp [window]

theorem window_field (front word back : Bytes) {start n : Nat} (place : start = front.length)
    (size : n = word.length) : window (front ++ (word ++ back)) start n = word := by
  subst place size
  rw [window_append_right (Nat.le_refl _), Nat.sub_self]
  simp [window]

end Netmon.Library
