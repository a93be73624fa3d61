/-!
# Keys

The eight keys of the joypad and sets of them as one byte.
-/

namespace Handheld

inductive Key where
  | right
  | left
  | up
  | down
  | a
  | b
  | select
  | start
deriving Repr, DecidableEq, Inhabited

namespace Key

def all : List Key := [right, left, up, down, a, b, select, start]

def index : Key → Fin 8
  | right => 0
  | left => 1
  | up => 2
  | down => 3
  | a => 4
  | b => 5
  | select => 6
  | start => 7

def mask : Key → UInt8
  | right => 0x01
  | left => 0x02
  | up => 0x04
  | down => 0x08
  | a => 0x10
  | b => 0x20
  | select => 0x40
  | start => 0x80

def name : Key → String
  | right => "Right"
  | left => "Left"
  | up => "Up"
  | down => "Down"
  | a => "A"
  | b => "B"
  | select => "Select"
  | start => "Start"

def ofName? (s : String) : Option Key := all.find? fun k => k.name == s

/-- The key that a byte of terminal input stands for: the last letter of an arrow's escape
sequence, `z`, `x`, line feed or NUL, and backspace. -/
def ofByte? (byte : UInt8) : Option Key :=
  match byte with
  | 0x41 => some up
  | 0x42 => some down
  | 0x43 => some right
  | 0x44 => some left
  | 0x7a => some a
  | 0x78 => some b
  | 0x0a | 0x00 => some start
  | 0x08 => some select
  | _ => none

theorem mem_all (k : Key) : k ∈ all := by
  cases k <;> decide

theorem mask_ne_zero (k : Key) : k.mask ≠ 0 := by
  cases k <;> decide

theorem mask_and_mask {k k' : Key} (h : k ≠ k') : k.mask &&& k'.mask = 0 := by
  revert h
  cases k <;> cases k' <;> decide

theorem not_mask_and_mask {k k' : Key} (h : k ≠ k') : ~~~k.mask &&& k'.mask = k'.mask := by
  revert h
  cases k <;> cases k' <;> decide

end Key

/-- A set of keys, one bit each. -/
structure KeySet where
  bits : UInt8
deriving Repr, DecidableEq, Inhabited

namespace KeySet

def empty : KeySet := ⟨0⟩

def contains (s : KeySet) (k : Key) : Bool := s.bits &&& k.mask != 0

def insert (s : KeySet) (k : Key) : KeySet := ⟨s.bits ||| k.mask⟩

def erase (s : KeySet) (k : Key) : KeySet := ⟨s.bits &&& ~~~k.mask⟩

def filter (p : Key → Bool) : KeySet :=
  Key.all.foldl (fun s k => if p k then s.insert k else s) empty

def diff (s t : KeySet) : KeySet := ⟨s.bits &&& ~~~t.bits⟩

def isEmpty (s : KeySet) : Bool := s.bits == 0

/-- The joypad register while these keys are pressed: a pressed key's bit is clear. -/
def register (s : KeySet) : UInt8 := ~~~s.bits

theorem or_and (a b m : UInt8) : (a ||| b) &&& m = a &&& m ||| b &&& m := by
  apply UInt8.toBitVec_inj.1
  ext i
  simp [Bool.and_or_distrib_right]

@[simp] theorem contains_empty (k : Key) : empty.contains k = false := by
  simp [contains, empty]

@[simp] theorem contains_insert (s : KeySet) (k k' : Key) :
    (s.insert k).contains k' = (k == k' || s.contains k') := by
  by_cases h : k = k'
  · subst h
    have : s.bits &&& k.mask ||| k.mask ≠ 0 := fun h =>
      k.mask_ne_zero (UInt8.or_eq_zero_iff.1 h).2
    simp [contains, insert, or_and, this]
  · simp [contains, insert, or_and, Key.mask_and_mask h, h]

@[simp] theorem contains_erase (s : KeySet) (k k' : Key) :
    (s.erase k).contains k' = (k != k' && s.contains k') := by
  by_cases h : k = k'
  · subst h
    simp [contains, erase, UInt8.and_assoc]
  · simp [contains, erase, UInt8.and_assoc, Key.not_mask_and_mask h, h]

theorem contains_insertAll (p : Key → Bool) (ks : List Key) (s : KeySet) (k : Key) :
    (ks.foldl (fun s k => if p k then s.insert k else s) s).contains k =
      (s.contains k || (ks.contains k && p k)) := by
  induction ks generalizing s with
  | nil => simp
  | cons k' ks ih =>
    rw [List.foldl_cons, ih]
    by_cases hk : k' = k
    · subst hk
      by_cases hp : p k' <;> simp [hp]
    · have : (k' == k) = false := by simp [hk]
      by_cases hp : p k' <;> simp [hp, this, Ne.symm hk]

@[simp] theorem contains_filter (p : Key → Bool) (k : Key) : (filter p).contains k = p k := by
  simp [filter, contains_insertAll, Key.mem_all k]

end KeySet

end Handheld
