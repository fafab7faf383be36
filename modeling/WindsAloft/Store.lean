import WindsAloft.Eviction

/-!
# The bounded sample store

A store keeps at most `capacity` samples in numbered slots.  While there is
room a new sample takes the next slot; after that it takes the slot of the
least important one, which is handed back.  Two counters tell how many samples
came in and how many were given up since the store was made or last emptied.
-/

namespace WindsAloft

/-- What a machine does with requests for memory. -/
structure Memory where
  /-- Whether a block of so many bytes is granted. -/
  grants : Nat → Bool

/-- A machine that grants what fits into the addresses of a program, which have 47 bits. -/
def Memory.addressable : Memory where
  grants bytes := bytes ≤ 140737488355328

structure Store where
  scoring : Scoring
  capacity : Nat
  /-- The samples in slot order. -/
  samples : Array Sample
  /-- Samples taken in since the last reset. -/
  inserted : Nat
  /-- Samples given up since the last reset. -/
  evicted : Nat
  capacity_pos : 0 < capacity
  size_le : samples.size ≤ capacity

/-- A sample that had to go: where it was, what it was, and how it scored. -/
structure Eviction where
  slot : Nat
  sample : Sample
  score : Int64
  deriving DecidableEq, Repr

structure Store.Status where
  size : Nat
  capacity : Nat
  inserted : Nat
  evicted : Nat
  oldestTime : Option Float
  newestTime : Option Float
  deriving DecidableEq, Repr

namespace Store

/-- An empty store.  A capacity of zero is raised to one. -/
def empty (capacity : Nat) (scoring : Scoring) : Store where
  scoring := scoring
  capacity := max capacity 1
  samples := #[]
  inserted := 0
  evicted := 0
  capacity_pos := by omega
  size_le := by simp

def slotBytes : Nat := 40

/-- The most bytes that can be requested as one block of memory. -/
def greatestBlock : Nat := 9223372036854775807

def Allocatable (capacity : Nat) : Prop :=
  max capacity 1 * slotBytes ≤ greatestBlock

instance (capacity : Nat) : Decidable (Allocatable capacity) :=
  inferInstanceAs (Decidable (_ ≤ _))

/--
Whether the slots can be had on a machine: they can be requested as one block, and
the machine grants a block of that size.
-/
def Obtainable (memory : Memory) (capacity : Nat) : Prop :=
  Allocatable capacity ∧ memory.grants (max capacity 1 * slotBytes) = true

instance (memory : Memory) (capacity : Nat) : Decidable (Obtainable memory capacity) :=
  inferInstanceAs (Decidable (_ ∧ _))

def size (store : Store) : Nat :=
  store.samples.size

def isEmpty (store : Store) : Bool :=
  store.samples.isEmpty

/-- Whether the next sample has to replace another one. -/
def isFull (store : Store) : Bool :=
  store.samples.size == store.capacity

def get? (store : Store) (slot : Nat) : Option Sample :=
  store.samples[slot]?

def toList (store : Store) : List Sample :=
  store.samples.toList

/-- The slot that an insertion at the given time would replace, `none` while there is room. -/
def evictionCandidate (store : Store) (now : Float) : Option Nat :=
  if store.isFull then leastImportant store.scoring now store.toList else none

/-- Takes a sample in and hands back what had to go for it. -/
def insert (store : Store) (sample : Sample) : Store × Option Eviction :=
  if room : store.samples.size < store.capacity then
    ({ store with
        samples := store.samples.push sample
        inserted := store.inserted + 1
        size_le := Nat.le_trans (Nat.le_of_eq (Array.size_push sample)) room },
      none)
  else
    match chosen : leastImportant store.scoring sample.time store.toList with
    | none => ({ store with inserted := store.inserted + 1 }, none)
    | some slot =>
        have bound : slot < store.samples.size := leastImportant_lt chosen
        let old := store.samples[slot]
        ({ store with
            samples := store.samples.set slot sample
            inserted := store.inserted + 1
            evicted := store.evicted + 1
            size_le := Nat.le_trans (Nat.le_of_eq (Array.size_set bound)) store.size_le },
          some
            { slot := slot
              sample := old
              score := store.scoring old sample.time })

def add
    (store : Store) (time : Float) (wind : Wind) (altitude : Float) (quality : Int32) :
    Store × Option Eviction :=
  store.insert { wind := wind, quality := quality, time := time, altitude := altitude }

/-- Gives up every sample and starts counting anew; capacity and scoring stay. -/
def reset (store : Store) : Store where
  scoring := store.scoring
  capacity := store.capacity
  samples := #[]
  inserted := 0
  evicted := 0
  capacity_pos := store.capacity_pos
  size_le := by simp

/-- The choice among the times of the samples, `none` if there is no sample. -/
def selectTime (choose : Float → Float → Float) : List Sample → Option Float
  | [] => none
  | sample :: samples =>
      some (samples.foldl (fun time sample => choose time sample.time) sample.time)

def status (store : Store) : Status where
  size := store.size
  capacity := store.capacity
  inserted := store.inserted
  evicted := store.evicted
  oldestTime := selectTime lesser store.toList
  newestTime := selectTime greater store.toList

def describe (store : Store) : String :=
  "MeasurementStore \x7b len: " ++ toString store.size ++
    ", capacity: " ++ toString store.capacity ++
    ", evicted: " ++ toString store.evicted ++ " \x7d"

end Store
end WindsAloft
