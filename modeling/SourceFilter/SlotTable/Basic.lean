/-!
# Slot tables

A slot table files values under numeric keys in a fixed array of slots, at least two for every key
it may hold. A key is looked for from its home slot onwards, wrapping around at the end, and a
slot that was never used ends the search. A removed key may leave a tombstone, which searches pass
over. There are two ways to add a key: `put` also takes a slot with a tombstone and starts from a
fresh value, `claim` takes only a slot that was never used and starts from the value found there.
-/

namespace SourceFilter

/-- What a slot holds. -/
inductive Mark where
  /-- Never used, or free again; ends a search. -/
  | empty
  /-- A removed key that later keys were placed behind; does not end a search. -/
  | tombstone
  /-- A key. -/
  | live (key : Nat)
  deriving DecidableEq, Repr, Inhabited

/-- The number of bits of a slot number, for a table that may hold so many keys. -/
def slotBits (capacity : Nat) : Nat := if capacity ≤ 1 then 1 else Nat.log2 (capacity - 1) + 2

/-- The number of slots: the least power of two that leaves half of the slots free. -/
def slotCount (capacity : Nat) : Nat := 1 <<< slotBits capacity

/-- There is a slot. -/
theorem slotCount_pos (capacity : Nat) : 0 < slotCount capacity := by
  rw [slotCount, Nat.one_shiftLeft]
  exact Nat.two_pow_pos (slotBits capacity)

/-- A table that holds all the keys it may hold still has half of its slots free. -/
theorem two_mul_le_slotCount (capacity : Nat) : 2 * max capacity 1 ≤ slotCount capacity := by
  unfold slotCount slotBits
  rw [Nat.one_shiftLeft]
  split
  next h => omega
  next h =>
    have hlt : capacity - 1 < 2 ^ (Nat.log2 (capacity - 1) + 1) := Nat.lt_log2_self
    have hpow : 2 ^ (Nat.log2 (capacity - 1) + 2) = 2 * 2 ^ (Nat.log2 (capacity - 1) + 1) := by
      rw [Nat.pow_succ, Nat.mul_comm]
    omega

/-- The number of a slot. -/
abbrev Slot (capacity : Nat) := Fin (slotCount capacity)

namespace Slot

variable {capacity : Nat}

/-- The slot a number of steps onwards, around the end. -/
def ahead (s : Slot capacity) (steps : Nat) : Slot capacity :=
  ⟨(s + steps) % slotCount capacity, Nat.mod_lt _ (slotCount_pos capacity)⟩

/-- The slot after this one; the first one comes after the last one. -/
def next (s : Slot capacity) : Slot capacity := s.ahead 1

/-- The slot before this one; the last one comes before the first one. -/
def previous (s : Slot capacity) : Slot capacity := s.ahead (slotCount capacity - 1)

/-- The steps that lead from one slot onwards to another. -/
def distance (first last : Slot capacity) : Nat :=
  (last + slotCount capacity - first) % slotCount capacity

/-- The odd number nearest to `2 ^ 64` divided by the golden ratio. Its multiples spread evenly,
so neighbouring keys get homes that are far apart. -/
def multiplier : Nat := 0x9E3779B97F4A7C15

/-- The slot where the search for a key starts: the leading bits of a 64-bit product. -/
def home (key : Nat) : Slot capacity :=
  ⟨(key * multiplier % UInt64.size) >>> (64 - slotBits capacity), by
    have hlt : key * multiplier % UInt64.size < 2 ^ 64 := Nat.mod_lt _ (by decide)
    rw [slotCount, Nat.one_shiftLeft, Nat.shiftRight_eq_div_pow]
    by_cases h : slotBits capacity ≤ 64
    · rw [Nat.div_lt_iff_lt_mul (Nat.two_pow_pos _), ← Nat.pow_add, Nat.add_sub_cancel' h]
      exact hlt
    · have hb : 64 - slotBits capacity = 0 := by omega
      rw [hb, Nat.pow_zero, Nat.div_one]
      exact Nat.lt_of_lt_of_le hlt (Nat.pow_le_pow_right (by decide) (by omega))⟩

end Slot

/-- A table of at most `capacity` keys. -/
structure SlotTable (capacity : Nat) (V : Type) where
  /-- What each slot holds. -/
  marks : Vector Mark (slotCount capacity)
  /-- The value of each slot; it outlives the key. -/
  values : Vector V (slotCount capacity)
  /-- How many keys are live. -/
  size : Nat

/-- What became of a key that was to be added. -/
inductive Placement where
  /-- The key was there. -/
  | found
  /-- The key is new. -/
  | created
  /-- There is no room for the key. -/
  | full
  deriving DecidableEq, Repr

/-- The outcome of a search that also looks for a place. -/
inductive Landing (capacity : Nat) where
  /-- The slot that holds the key. -/
  | present (slot : Slot capacity)
  /-- The key is absent; the first slot that may take it, if there is one. -/
  | absent (free : Option (Slot capacity))
  deriving DecidableEq, Repr

namespace SlotTable

variable {capacity : Nat} {V : Type}

/-- The table without keys. -/
def empty [Inhabited V] : SlotTable capacity V where
  marks := Vector.replicate _ .empty
  values := Vector.replicate _ default
  size := 0

instance [Inhabited V] : Inhabited (SlotTable capacity V) := ⟨empty⟩

/-- Follows the slots of a search for a number of steps. -/
def seek (marks : Vector Mark (slotCount capacity)) (key : Nat) :
    Nat → Slot capacity → Option (Slot capacity)
  | 0, _ => none
  | steps + 1, s =>
    match marks.get s with
    | .empty => none
    | .tombstone => seek marks key steps s.next
    | .live k => if k = key then some s else seek marks key steps s.next

/-- The slot that holds a key. -/
def find? (t : SlotTable capacity V) (key : Nat) : Option (Slot capacity) :=
  seek t.marks key (slotCount capacity) (Slot.home key)

/-- A search ends at a slot that holds the key. -/
theorem get_of_seek {marks : Vector Mark (slotCount capacity)} {key steps : Nat}
    {s found : Slot capacity} (h : seek marks key steps s = some found) :
    marks.get found = .live key := by
  induction steps generalizing s with
  | zero => simp [seek] at h
  | succ steps ih =>
    rw [seek] at h
    split at h
    next => simp at h
    next => exact ih h
    next k hk =>
      split at h
      next hkey =>
        cases h
        rw [hk, hkey]
      next => exact ih h

/-- The slot that is found for a key holds it. -/
theorem get_of_find? {t : SlotTable capacity V} {key : Nat} {s : Slot capacity}
    (h : t.find? key = some s) : t.marks.get s = .live key :=
  get_of_seek h

/-- The value filed under a key. -/
def get? (t : SlotTable capacity V) (key : Nat) : Option V := (t.find? key).map t.values.get

/-- Whether a key is live. -/
def contains (t : SlotTable capacity V) (key : Nat) : Bool := (t.find? key).isSome

/-- Changes the value of a key; without the key, nothing happens. -/
def modify (t : SlotTable capacity V) (key : Nat) (f : V → V) : SlotTable capacity V :=
  match t.find? key with
  | none => t
  | some s => { t with values := t.values.set s (f (t.values.get s)) }

/-- Follows the slots of a search and notes the first slot that may take the key. With `reuse`, a
tombstone may. -/
def land (reuse : Bool) (marks : Vector Mark (slotCount capacity)) (key : Nat) :
    Nat → Slot capacity → Option (Slot capacity) → Landing capacity
  | 0, _, free => .absent free
  | steps + 1, s, free =>
    match marks.get s with
    | .empty => .absent (free.or (some s))
    | .tombstone => land reuse marks key steps s.next (if reuse then free.or (some s) else free)
    | .live k => if k = key then .present s else land reuse marks key steps s.next free

/-- Looks for a key and for a place where it may go. -/
def landing (reuse : Bool) (t : SlotTable capacity V) (key : Nat) : Landing capacity :=
  land reuse t.marks key (slotCount capacity) (Slot.home key) none

/-- Writes a key and its value into a slot, as one key more. -/
def occupy (t : SlotTable capacity V) (s : Slot capacity) (key : Nat) (value : V) :
    SlotTable capacity V where
  marks := t.marks.set s (.live key)
  values := t.values.set s value
  size := t.size + 1

/-- Puts a tombstone into a slot. -/
def bury (marks : Vector Mark (slotCount capacity)) (s : Slot capacity) :
    Vector Mark (slotCount capacity) :=
  marks.set s .tombstone

/-- Adds a key with an initialised fresh value, or initialises the value of a live key in place. -/
def put [Inhabited V] (t : SlotTable capacity V) (key : Nat) (init : V → V) :
    Placement × SlotTable capacity V :=
  match t.landing true key with
  | .present s => (.found, { t with values := t.values.set s (init (t.values.get s)) })
  | .absent none => (.full, t)
  | .absent (some s) =>
    if capacity ≤ t.size then (.full, t) else (.created, t.occupy s key (init default))

/-- Finds a key, or adds it in a slot that was never used with what lies there, initialised. -/
def claim (t : SlotTable capacity V) (key : Nat) (init : V → V) :
    Placement × SlotTable capacity V :=
  match t.landing false key with
  | .present _ => (.found, t)
  | .absent none => (.full, t)
  | .absent (some s) =>
    if capacity ≤ t.size then (.full, t)
    else (.created, t.occupy s key (init (t.values.get s)))

/-- The live keys with their values, in the order of slots. -/
def entries (t : SlotTable capacity V) : List (Nat × V) :=
  (t.marks.toList.zip t.values.toList).filterMap fun (mark, value) =>
    match mark with
    | .live key => some (key, value)
    | _ => none

end SlotTable
end SourceFilter
