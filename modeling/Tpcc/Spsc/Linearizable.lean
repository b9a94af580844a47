import Tpcc.Spsc.Model
import Tpcc.Lib.Word
import Mathlib.Data.Nat.ModEq

/-! The ring is a linearizable bounded FIFO: the stores to `Head` and `Tail` are its pushes and pops,
and a failed call saw the queue full or empty at its load of the other side's index. -/

namespace Tpcc.Spsc

open Lib

variable {α : Type}

/-- The value that a push has written to its slot and not yet published. -/
def Producer.pending : Producer α → List α
  | .written item _ => [item]
  | _ => []

/-- The value that a pop has read from its slot and not yet released. -/
def Consumer.pending : Consumer α → List (Option α)
  | .taken item _ => [item]
  | _ => []

namespace State

/-- The values written to slots so far. -/
def written (s : State α) : List α := s.pushed ++ s.producer.pending

/-- The values read from slots so far. -/
def taken (s : State α) : List (Option α) := s.popped ++ s.consumer.pending

/-- The values of the abstract queue. -/
def contents (s : State α) : List α := s.pushed.drop s.popped.length

end State

/-- The bounded FIFO.  A failure is allowed only with the number of values that makes it fail. -/
inductive FifoStep (cap : Nat) : List α → Event α → List α → Prop
  | internal (xs : List α) : FifoStep cap xs .internal xs
  | slotWrite (xs : List α) : FifoStep cap xs (.slotWrite (some none)) xs
  | slotRead (x : α) (xs : List α) : FifoStep cap (x :: xs) (.slotRead (some (some x))) (x :: xs)
  | pushTrue (xs : List α) (x : α) (h : xs.length < cap) :
      FifoStep cap xs (.pushTrue x) (xs ++ [x])
  | popTrue (x : α) (xs : List α) : FifoStep cap (x :: xs) (.popTrue (some x)) xs
  | pushFalse (xs : List α) : FifoStep cap xs (.pushFalse cap) xs
  | popFalse (xs : List α) : FifoStep cap xs (.popFalse 0) xs

/-- The bounded FIFO as a transition system. -/
def fifo (α : Type) (cap : Nat) : Lts (List α) (Event α) where
  init xs := xs = []
  step := FifoStep cap

/-- The values that the successful `TryPush` calls of a run pushed. -/
def pushedValues (labels : List (Event α)) : List α :=
  labels.filterMap fun
    | .pushTrue item => some item
    | _ => none

/-- The values that the successful `TryPop` calls of a run returned. -/
def poppedValues (labels : List (Event α)) : List (Option α) :=
  labels.filterMap fun
    | .popTrue item => some item
    | _ => none

/-- What the producer's position says, with `seenTail` the number of pops behind `CachedTail`. -/
def ProducerHolds (s : State α) (seenTail : Nat) : Prop :=
  match s.producer with
  | .idle => True
  | .loaded _ head => head = s.q.head
  | .refreshed _ head occupied => head = s.q.head ∧ s.pushed.length = seenTail + occupied
  | .written _ head => head = s.q.head

/-- What the consumer's position says, with `seenHead` the number of pushes behind `CachedHead`. -/
def ConsumerHolds (s : State α) (seenHead : Nat) : Prop :=
  match s.consumer with
  | .idle => True
  | .loaded tail => tail = s.q.tail
  | .refreshed tail occupied => tail = s.q.tail ∧ seenHead = s.popped.length + occupied
  | .taken _ tail => tail = s.q.tail

/-- The invariant of a queue of `cap` slots.  The window of `cap` positions from the first value not
yet taken holds the values written and is blank after them. -/
structure Holds (cap seenTail seenHead : Nat) (s : State α) : Prop where
  capacity_eq : s.q.capacity.toNat = cap
  mask_eq : cap ≠ 0 → s.q.capacityMask = s.q.capacity - 1
  length_eq : s.q.queue.length = cap
  cap_pow : cap = 0 ∨ ∃ k, cap = 2 ^ k
  head_eq : s.q.head = UInt64.ofNat s.pushed.length
  tail_eq : s.q.tail = UInt64.ofNat s.popped.length
  cachedTail_eq : s.q.cachedTail = UInt64.ofNat seenTail
  cachedHead_eq : s.q.cachedHead = UInt64.ofNat seenHead
  seenTail_le : seenTail ≤ s.popped.length
  written_le : s.written.length ≤ seenTail + cap
  taken_le : s.taken.length ≤ seenHead
  seenHead_le : seenHead ≤ s.pushed.length
  taken_prefix : s.taken <+: s.written.map some
  slots : ∀ k, s.taken.length ≤ k → k < s.taken.length + cap →
    s.q.queue[k % cap]? = some s.written[k]?
  producer : ProducerHolds s seenTail
  consumer : ConsumerHolds s seenHead

namespace Holds

variable {cap seenTail seenHead : Nat} {s t : State α} {e : Event α}

theorem cap_lt (h : Holds cap seenTail seenHead s) : cap < 2 ^ 64 :=
  h.capacity_eq ▸ s.q.capacity.toNat_lt

theorem slot_ofNat (h : Holds cap seenTail seenHead s) (hpos : cap ≠ 0) (n : Nat) :
    s.slot (UInt64.ofNat n) = n % cap := by
  rcases h.cap_pow with hzero | ⟨k, hk⟩
  · exact absurd hzero hpos
  · rw [State.slot, h.mask_eq hpos, word_and_mask (h.capacity_eq.trans hk), h.capacity_eq]

theorem pushed_le_written (s : State α) : s.pushed.length ≤ s.written.length := by
  simp [State.written]

theorem popped_le_taken (s : State α) : s.popped.length ≤ s.taken.length := by
  simp [State.taken]

theorem occupied_le (h : Holds cap seenTail seenHead s) : s.occupied ≤ cap := by
  have hseen := h.seenTail_le
  have hwritten := h.written_le
  have hpushed := pushed_le_written s
  rw [State.occupied]
  omega

theorem popped_le_pushed (h : Holds cap seenTail seenHead s) :
    s.popped.length ≤ s.pushed.length := by
  have htaken := h.taken_le
  have hseen := h.seenHead_le
  have hpopped := popped_le_taken s
  omega

/-- The comparison of `TryPush`. -/
theorem full_iff (h : Holds cap seenTail seenHead s) :
    s.q.head - s.q.cachedTail = s.q.capacity ↔ s.pushed.length = seenTail + cap := by
  have hseen := h.seenTail_le
  have hle := h.popped_le_pushed
  have hwritten := h.written_le
  have hpushed := pushed_le_written s
  have hcap := h.cap_lt
  rw [h.head_eq, h.cachedTail_eq, word_sub_eq_iff (by omega) (by omega), h.capacity_eq]

/-- The comparison of `TryPop`. -/
theorem empty_iff (h : Holds cap seenTail seenHead s) :
    s.q.tail = s.q.cachedHead ↔ seenHead = s.popped.length := by
  have htaken := h.taken_le
  have hseen := h.seenHead_le
  have hpopped := popped_le_taken s
  have hwritten := h.written_le
  have htail := h.seenTail_le
  have hpushed := pushed_le_written s
  have hcap := h.cap_lt
  rw [h.tail_eq, h.cachedHead_eq, word_eq_iff (by omega) (by omega)]

/-- Two positions less than `cap` apart have different slots. -/
theorem mod_ne {a b : Nat} (hlt : a < b) (hwin : b < a + cap) : a % cap ≠ b % cap := by
  intro heq
  have hdvd : cap ∣ b - a := (Nat.modEq_iff_dvd' hlt.le).1 heq
  have hzero := Nat.eq_zero_of_dvd_of_lt hdvd (by omega)
  omega

/-- Where the producer has not written yet, it may move between positions that know `Head`. -/
theorem setProducer (h : Holds cap seenTail seenHead s) {p : Producer α}
    (hold : s.producer.pending = []) (hnew : p.pending = [])
    (hp : ProducerHolds { s with producer := p } seenTail) :
    Holds cap seenTail seenHead { s with producer := p } := by
  have hwritten : State.written { s with producer := p } = s.written := by
    simp only [State.written, hold, hnew]
  exact
    { h with
      written_le := hwritten ▸ h.written_le
      taken_prefix := hwritten ▸ h.taken_prefix
      slots := hwritten ▸ h.slots
      producer := hp }

theorem setConsumer (h : Holds cap seenTail seenHead s) {c : Consumer α}
    (hold : s.consumer.pending = []) (hnew : c.pending = [])
    (hc : ConsumerHolds { s with consumer := c } seenHead) :
    Holds cap seenTail seenHead { s with consumer := c } := by
  have htaken : State.taken { s with consumer := c } = s.taken := by
    simp only [State.taken, hold, hnew]
  exact
    { h with
      taken_le := htaken ▸ h.taken_le
      taken_prefix := htaken ▸ h.taken_prefix
      slots := htaken ▸ h.slots
      consumer := hc }

/-- The load of `Tail` into `CachedTail`. -/
theorem refreshTail (h : Holds cap seenTail seenHead s) {item : α} {head : UInt64}
    (hp : s.producer = .loaded item head) :
    Holds cap s.popped.length seenHead
      { s with
        q := { s.q with cachedTail := s.q.tail }
        producer := .refreshed item head s.occupied } := by
  have hhead : head = s.q.head := by
    simpa only [ProducerHolds, hp] using h.producer
  have hle := h.popped_le_pushed
  have hwritten : s.written = s.pushed := by simp [State.written, hp, Producer.pending]
  have hroom := h.written_le
  have hseen := h.seenTail_le
  have hnew : s.pushed ++ Producer.pending (.refreshed item head s.occupied) = s.written := by
    simp [hwritten, Producer.pending]
  exact
    { h with
      cachedTail_eq := h.tail_eq
      seenTail_le := le_rfl
      written_le := by
        change (s.pushed ++ Producer.pending (.refreshed item head s.occupied)).length ≤ _
        rw [hnew]
        omega
      taken_prefix := by
        simp only [State.written, hnew]
        exact h.taken_prefix
      slots := by
        simp only [State.written, hnew]
        exact h.slots
      producer := ⟨hhead, by simp only [State.occupied]; omega⟩ }

/-- The load of `Head` into `CachedHead`. -/
theorem refreshHead (h : Holds cap seenTail seenHead s) {tail : UInt64}
    (hc : s.consumer = .loaded tail) :
    Holds cap seenTail s.pushed.length
      { s with
        q := { s.q with cachedHead := s.q.head }
        consumer := .refreshed tail s.occupied } := by
  have htail : tail = s.q.tail := by
    simpa only [ConsumerHolds, hc] using h.consumer
  have hle := h.popped_le_pushed
  have htaken : s.taken = s.popped := by simp [State.taken, hc, Consumer.pending]
  have hnew : s.popped ++ Consumer.pending (.refreshed tail s.occupied) = s.taken := by
    simp [htaken, Consumer.pending]
  exact
    { h with
      cachedHead_eq := h.head_eq
      seenHead_le := le_rfl
      taken_le := by
        simp only [State.taken, hnew]
        exact h.taken_le.trans h.seenHead_le
      taken_prefix := by
        simp only [State.taken, hnew]
        exact h.taken_prefix
      slots := by
        simp only [State.taken, hnew]
        exact h.slots
      consumer := ⟨htail, by simp only [State.occupied]; omega⟩ }

/-- The slot that a push writes is blank. -/
theorem write_blank (h : Holds cap seenTail seenHead s) (hp : s.producer.pending = [])
    (room : s.q.head - s.q.cachedTail ≠ s.q.capacity) :
    s.pushed.length < seenTail + cap ∧ cap ≠ 0 ∧
      s.q.queue[s.pushed.length % cap]? = some none := by
  have hwritten : s.written = s.pushed := by simp [State.written, hp]
  have hle := h.written_le
  have hne : s.pushed.length ≠ seenTail + cap := fun he => room (h.full_iff.2 he)
  have hseen := h.seenTail_le
  have htaken := h.taken_le
  have hhead := h.seenHead_le
  have hpopped := popped_le_taken s
  rw [hwritten] at hle
  refine ⟨by omega, by omega, ?_⟩
  rw [h.slots s.pushed.length (by omega) (by omega), hwritten]
  simp

/-- The slot write of `TryPush`. -/
theorem write (h : Holds cap seenTail seenHead s) {item : α} {head : UInt64}
    (hp : s.producer.pending = []) (hhead : head = s.q.head)
    (room : s.q.head - s.q.cachedTail ≠ s.q.capacity) :
    Holds cap seenTail seenHead
      { s with
        q := { s.q with queue := s.q.queue.set (s.slot head) (some item) }
        producer := .written item head } := by
  obtain ⟨hroom, hpos, -⟩ := h.write_blank hp room
  have hwritten : s.written = s.pushed := by simp [State.written, hp]
  have hslot : s.slot head = s.pushed.length % cap := by
    rw [hhead, h.head_eq, h.slot_ofNat hpos]
  have hseen := h.seenTail_le
  have htaken := h.taken_le.trans h.seenHead_le
  have hpopped := popped_le_taken s
  have hlen := h.length_eq
  exact
    { h with
      length_eq := by simpa using hlen
      written_le := by
        simp only [State.written, Producer.pending, List.length_append, List.length_cons,
          List.length_nil]
        omega
      taken_prefix := by
        have hold := h.taken_prefix
        rw [hwritten] at hold
        simp only [State.written, Producer.pending, List.map_append]
        exact hold.trans (List.prefix_append _ _)
      slots := by
        intro k hlo hhi
        change s.taken.length ≤ k at hlo
        change k < s.taken.length + cap at hhi
        change (s.q.queue.set (s.slot head) (some item))[k % cap]? = some (s.pushed ++ [item])[k]?
        have hold := h.slots k hlo hhi
        rw [hwritten] at hold
        rw [hslot]
        rcases Nat.lt_trichotomy k s.pushed.length with hlt | rfl | hgt
        · rw [List.getElem?_set_ne (mod_ne hlt (by omega)).symm, hold,
            List.getElem?_append_left hlt]
        · rw [List.getElem?_set_self (by rw [hlen]; exact Nat.mod_lt _ (by omega))]
          simp
        · rw [List.getElem?_set_ne (mod_ne hgt (by omega)), hold,
            List.getElem?_eq_none hgt.le, List.getElem?_eq_none (by simp; omega)]
      producer := hhead }

/-- The slot that a pop reads holds the next value. -/
theorem read_next (h : Holds cap seenTail seenHead s) (hc : s.consumer.pending = [])
    (filled : s.q.tail ≠ s.q.cachedHead) :
    s.popped.length < seenHead ∧ cap ≠ 0 ∧ ∃ x, s.pushed[s.popped.length]? = some x ∧
      s.written[s.popped.length]? = some x ∧
      s.q.queue[s.popped.length % cap]? = some (some x) := by
  have htaken : s.taken = s.popped := by simp [State.taken, hc]
  have hle := h.taken_le
  have hne : seenHead ≠ s.popped.length := fun he => filled (h.empty_iff.2 he)
  have hseen := h.seenTail_le
  have hhead := h.seenHead_le
  have hroom := h.written_le
  have hpushed := pushed_le_written s
  rw [htaken] at hle
  have hlt : s.popped.length < s.pushed.length := by omega
  have hwritten : s.written[s.popped.length]? = s.pushed[s.popped.length]? :=
    List.getElem?_append_left hlt
  refine ⟨by omega, by omega, s.pushed[s.popped.length], List.getElem?_eq_getElem hlt, ?_, ?_⟩
  · rw [hwritten, List.getElem?_eq_getElem hlt]
  · rw [h.slots s.popped.length (by rw [htaken]) (by rw [htaken]; omega), hwritten,
      List.getElem?_eq_getElem hlt]

/-- The slot read of `TryPop`. -/
theorem read (h : Holds cap seenTail seenHead s) {tail : UInt64}
    (hc : s.consumer.pending = []) (htail : tail = s.q.tail)
    (filled : s.q.tail ≠ s.q.cachedHead) :
    Holds cap seenTail seenHead
      { s with
        q := { s.q with queue := s.q.queue.set (s.slot tail) none }
        consumer := .taken s.q.queue[s.slot tail]?.join tail } := by
  obtain ⟨hlt, hpos, x, -, hx, hfound⟩ := h.read_next hc filled
  have htaken : s.taken = s.popped := by simp [State.taken, hc]
  have hslot : s.slot tail = s.popped.length % cap := by
    rw [htail, h.tail_eq, h.slot_ofNat hpos]
  have hseen := h.seenTail_le
  have hroom := h.written_le
  have hlen := h.length_eq
  rw [hslot, hfound]
  exact
    { h with
      length_eq := by simpa using hlen
      taken_le := by
        simp only [State.taken, Consumer.pending, List.length_append, List.length_cons,
          List.length_nil]
        omega
      taken_prefix := by
        have hold := h.taken_prefix
        rw [htaken] at hold
        change s.popped ++ [some x] <+: s.written.map some
        rw [List.prefix_iff_eq_take] at hold ⊢
        rw [List.length_append, List.length_singleton, List.take_add_one, ← hold]
        simp [hx]
      slots := by
        intro k hlo hhi
        simp only [State.taken, Consumer.pending, List.length_append, List.length_cons,
          List.length_nil] at hlo hhi
        change (s.q.queue.set (s.popped.length % cap) none)[k % cap]? = some s.written[k]?
        rcases Nat.eq_or_lt_of_le (show k ≤ s.popped.length + cap by omega) with rfl | hlast
        · have hslotlt : s.popped.length % cap < s.q.queue.length := by
            rw [hlen]
            exact Nat.mod_lt _ (by omega)
          rw [Nat.add_mod_right, List.getElem?_set_self hslotlt, List.getElem?_eq_none (by omega)]
        · rw [List.getElem?_set_ne (mod_ne (by omega) hlast),
            h.slots k (by rw [htaken]; omega) (by rw [htaken]; omega)]
      consumer := htail }

/-- The store to `Head`. -/
theorem storeHead (h : Holds cap seenTail seenHead s) {item : α} {head : UInt64}
    (hp : s.producer = .written item head) :
    Holds cap seenTail seenHead
      { s with
        q := { s.q with head := head + 1 }
        producer := .idle
        pushed := s.pushed ++ [item] } := by
  have hhead : head = s.q.head := by
    simpa only [ProducerHolds, hp] using h.producer
  have hwritten : s.pushed ++ [item] ++ [] = s.written := by
    simp [State.written, hp, Producer.pending]
  exact
    { h with
      head_eq := by
        rw [hhead, h.head_eq, word_succ]
        simp
      written_le := by
        change (s.pushed ++ [item] ++ []).length ≤ _
        rw [hwritten]
        exact h.written_le
      seenHead_le := by
        have hold := h.seenHead_le
        simp only [List.length_append, List.length_singleton]
        omega
      taken_prefix := by
        change s.taken <+: (s.pushed ++ [item] ++ []).map some
        rw [hwritten]
        exact h.taken_prefix
      slots := by
        simp only [State.written, Producer.pending, hwritten]
        exact h.slots
      producer := trivial }

/-- The store to `Tail`. -/
theorem storeTail (h : Holds cap seenTail seenHead s) {item : Option α} {tail : UInt64}
    (hc : s.consumer = .taken item tail) :
    Holds cap seenTail seenHead
      { s with
        q := { s.q with tail := tail + 1 }
        consumer := .idle
        popped := s.popped ++ [item] } := by
  have htail : tail = s.q.tail := by
    simpa only [ConsumerHolds, hc] using h.consumer
  have htaken : s.popped ++ [item] ++ [] = s.taken := by
    simp [State.taken, hc, Consumer.pending]
  exact
    { h with
      tail_eq := by
        rw [htail, h.tail_eq, word_succ]
        simp
      seenTail_le := by
        have hold := h.seenTail_le
        simp only [List.length_append, List.length_singleton]
        omega
      taken_le := by
        change (s.popped ++ [item] ++ []).length ≤ _
        rw [htaken]
        exact h.taken_le
      taken_prefix := by
        change s.popped ++ [item] ++ [] <+: s.written.map some
        rw [htaken]
        exact h.taken_prefix
      slots := by
        simp only [State.taken, Consumer.pending, htaken]
        exact h.slots
      consumer := trivial }

/-- A value taken and not yet released is the first of the abstract queue. -/
theorem taken_first (h : Holds cap seenTail seenHead s) {item : Option α} {tail : UInt64}
    (hc : s.consumer = .taken item tail) :
    ∃ x, item = some x ∧ s.contents = x :: s.pushed.drop (s.popped.length + 1) := by
  have htaken : s.taken = s.popped ++ [item] := by simp [State.taken, hc, Consumer.pending]
  have hle := h.taken_le
  have hhead := h.seenHead_le
  have hprefix := h.taken_prefix
  rw [htaken] at hle hprefix
  simp only [List.length_append, List.length_singleton] at hle
  have hlt : s.popped.length < s.pushed.length := by omega
  refine ⟨s.pushed[s.popped.length], ?_, List.drop_eq_getElem_cons hlt⟩
  obtain ⟨rest, heq⟩ := hprefix
  have hget : (s.popped ++ [item] ++ rest)[s.popped.length]? =
      (s.written.map some)[s.popped.length]? := by
    rw [heq]
  rw [List.getElem?_map, State.written, List.getElem?_append_left hlt,
    List.getElem?_eq_getElem hlt] at hget
  simpa using hget

/-- What a step of the producer or the consumer has to keep. -/
def Keeps (cap : Nat) (s : State α) (step : Event α × State α) : Prop :=
  (∃ seenTail seenHead, Holds cap seenTail seenHead step.2) ∧
    FifoStep cap s.contents step.1 step.2.contents

theorem writeSlot_keeps (h : Holds cap seenTail seenHead s) {item : α}
    (hp : s.producer.pending = []) (room : s.q.head - s.q.cachedTail ≠ s.q.capacity) :
    Keeps cap s (s.writeSlot item s.q.head) := by
  obtain ⟨-, hpos, hblank⟩ := h.write_blank hp room
  refine ⟨⟨_, _, h.write hp rfl room⟩, ?_⟩
  rw [State.writeSlot, h.head_eq, h.slot_ofNat hpos, hblank]
  exact .slotWrite _

theorem readSlot_keeps (h : Holds cap seenTail seenHead s) (hc : s.consumer.pending = [])
    (filled : s.q.tail ≠ s.q.cachedHead) : Keeps cap s (s.readSlot s.q.tail) := by
  obtain ⟨-, hpos, x, hx, -, hfound⟩ := h.read_next hc filled
  refine ⟨⟨_, _, h.read hc rfl filled⟩, ?_⟩
  obtain ⟨hlt, rfl⟩ := List.getElem?_eq_some_iff.1 hx
  rw [State.readSlot, h.tail_eq, h.slot_ofNat hpos, hfound]
  simp only [State.contents, List.drop_eq_getElem_cons hlt]
  exact .slotRead _ _

/-- Every step of `TryPush` keeps the invariant and is a step of the bounded FIFO. -/
theorem tryPush_keeps (h : Holds cap seenTail seenHead s) (next : α) :
    Keeps cap s (s.tryPush next) := by
  have hproducer := h.producer
  cases hp : s.producer with
  | idle =>
    have hold : s.producer.pending = [] := by rw [hp]; rfl
    simp only [State.tryPush, hp]
    exact ⟨⟨_, _, h.setProducer hold rfl rfl⟩, .internal _⟩
  | loaded item head =>
    have hold : s.producer.pending = [] := by rw [hp]; rfl
    obtain rfl : head = s.q.head := by simpa only [ProducerHolds, hp] using hproducer
    simp only [State.tryPush, hp]
    split
    · exact ⟨⟨_, _, h.refreshTail hp⟩, .internal _⟩
    · next room => exact h.writeSlot_keeps hold room
  | refreshed item head occupied =>
    have hold : s.producer.pending = [] := by rw [hp]; rfl
    obtain ⟨rfl, hcount⟩ : head = s.q.head ∧ s.pushed.length = seenTail + occupied := by
      simpa only [ProducerHolds, hp] using hproducer
    simp only [State.tryPush, hp]
    split
    · next full =>
      rw [h.full_iff] at full
      obtain rfl : occupied = cap := by omega
      exact ⟨⟨_, _, h.setProducer hold rfl trivial⟩, .pushFalse _⟩
    · next room => exact h.writeSlot_keeps hold room
  | written item head =>
    have hwritten : s.written = s.pushed ++ [item] := by
      simp [State.written, hp, Producer.pending]
    have hroom := h.written_le
    have hseen := h.seenTail_le
    have hle := h.popped_le_pushed
    rw [hwritten, List.length_append, List.length_singleton] at hroom
    simp only [State.tryPush, hp]
    refine ⟨⟨_, _, h.storeHead hp⟩, ?_⟩
    simp only [State.contents, List.drop_append_of_le_length hle]
    exact .pushTrue _ item (by rw [List.length_drop]; omega)

/-- Every step of `TryPop` keeps the invariant and is a step of the bounded FIFO. -/
theorem tryPop_keeps (h : Holds cap seenTail seenHead s) : Keeps cap s s.tryPop := by
  have hconsumer := h.consumer
  cases hc : s.consumer with
  | idle =>
    have hold : s.consumer.pending = [] := by rw [hc]; rfl
    simp only [State.tryPop, hc]
    split
    · next zero =>
      have hcap : cap = 0 := by rw [← h.capacity_eq, zero]; rfl
      have hempty : s.occupied = 0 := by
        have hle := h.occupied_le
        omega
      rw [hempty]
      exact ⟨⟨_, _, h⟩, .popFalse _⟩
    · exact ⟨⟨_, _, h.setConsumer hold rfl rfl⟩, .internal _⟩
  | loaded tail =>
    have hold : s.consumer.pending = [] := by rw [hc]; rfl
    obtain rfl : tail = s.q.tail := by simpa only [ConsumerHolds, hc] using hconsumer
    simp only [State.tryPop, hc]
    split
    · exact ⟨⟨_, _, h.refreshHead hc⟩, .internal _⟩
    · next filled => exact h.readSlot_keeps hold filled
  | refreshed tail occupied =>
    have hold : s.consumer.pending = [] := by rw [hc]; rfl
    obtain ⟨rfl, hcount⟩ : tail = s.q.tail ∧ seenHead = s.popped.length + occupied := by
      simpa only [ConsumerHolds, hc] using hconsumer
    simp only [State.tryPop, hc]
    split
    · next empty =>
      rw [h.empty_iff] at empty
      obtain rfl : occupied = 0 := by omega
      exact ⟨⟨_, _, h.setConsumer hold rfl trivial⟩, .popFalse _⟩
    · next filled => exact h.readSlot_keeps hold filled
  | taken item tail =>
    obtain ⟨x, rfl, hfirst⟩ := h.taken_first hc
    simp only [State.tryPop, hc]
    refine ⟨⟨_, _, h.storeTail hc⟩, ?_⟩
    rw [hfirst]
    simp only [State.contents, List.length_append, List.length_singleton]
    exact .popTrue x _

theorem step_keeps (h : Holds cap seenTail seenHead s) {turn : Turn α}
    (hstep : Spsc.step s turn = some (e, t)) : Keeps cap s (e, t) := by
  cases turn with
  | producer next =>
    have heq : s.tryPush next = (e, t) := Option.some.inj hstep
    exact heq ▸ h.tryPush_keeps next
  | consumer =>
    have heq : s.tryPop = (e, t) := Option.some.inj hstep
    exact heq ▸ h.tryPop_keeps

end Holds

/-- The number of slots after `Resize(capacity)`. -/
def slotCount (capacity : UInt64) : Nat := if capacity = 0 then 0 else bitCeil capacity.toNat

theorem slotCount_le {capacity : UInt64} (hcap : capacity.toNat ≤ 2 ^ 63) :
    slotCount capacity ≤ 2 ^ 63 := by
  unfold slotCount bitCeil
  split
  · omega
  · exact Nat.pow_le_pow_right (by omega) (Nat.clog_le_of_le_pow hcap)

theorem le_slotCount (capacity : UInt64) : capacity.toNat ≤ slotCount capacity := by
  unfold slotCount
  split
  · next hzero => simp [hzero]
  · exact Nat.le_pow_clog (by omega) _

theorem resize_holds {capacity : UInt64} (hcap : capacity.toNat ≤ 2 ^ 63) :
    Holds (slotCount capacity) 0 0 (start α capacity) := by
  have hle := slotCount_le hcap
  have hcapacity :
      (resize capacity : TSpscCircularQueue α).capacity.toNat = slotCount capacity := by
    simp only [resize, slotCount]
    by_cases hzero : capacity = 0
    · simp [hzero]
    · simp only [slotCount, hzero, if_false] at hle
      simp only [ne_eq, hzero, not_false_eq_true, if_true, if_false]
      exact UInt64.toNat_ofNat_of_lt' (by simp only [UInt64.size]; omega)
  have hqueue : (resize capacity : TSpscCircularQueue α).queue =
      List.replicate (slotCount capacity) none := by
    rw [← hcapacity]
    rfl
  exact
    { capacity_eq := hcapacity
      mask_eq := by
        intro hpos
        have hne : (resize capacity : TSpscCircularQueue α).capacity ≠ 0 := by
          intro he
          rw [he] at hcapacity
          exact hpos hcapacity.symm
        exact if_pos hne
      length_eq := by
        change (resize capacity : TSpscCircularQueue α).queue.length = slotCount capacity
        rw [hqueue, List.length_replicate]
      cap_pow := by
        unfold slotCount bitCeil
        split
        · exact .inl rfl
        · exact .inr ⟨_, rfl⟩
      head_eq := rfl
      tail_eq := rfl
      cachedTail_eq := rfl
      cachedHead_eq := rfl
      seenTail_le := le_rfl
      written_le := Nat.zero_le _
      taken_le := le_rfl
      seenHead_le := le_rfl
      taken_prefix := List.prefix_rfl
      slots := by
        intro k _ hk
        have hpos : 0 < slotCount capacity := by
          change k < 0 + slotCount capacity at hk
          omega
        change (resize capacity).queue[_]? = some (([] : List α)[k]?)
        rw [hqueue, List.getElem?_replicate_of_lt (Nat.mod_lt _ hpos)]
        simp
      producer := trivial
      consumer := trivial }

/-- The values that a step adds to the ghost lists are those of its event. -/
theorem step_values {s t : State α} {e : Event α} {turn : Turn α}
    (hstep : step s turn = some (e, t)) :
    t.pushed = s.pushed ++ pushedValues [e] ∧ t.popped = s.popped ++ poppedValues [e] := by
  cases turn with
  | producer next =>
    obtain ⟨rfl, rfl⟩ := Prod.ext_iff.1 (Option.some.inj hstep : s.tryPush next = (e, t))
    unfold State.tryPush
    repeat' split
    all_goals simp [State.writeSlot, pushedValues, poppedValues]
  | consumer =>
    obtain ⟨rfl, rfl⟩ := Prod.ext_iff.1 (Option.some.inj hstep : s.tryPop = (e, t))
    unfold State.tryPop
    repeat' split
    all_goals simp [State.readSlot, pushedValues, poppedValues]

theorem run_values {capacity : UInt64} {s₀ s : State α} {labels : List (Event α)}
    (hinit : (lts α capacity).init s₀) (hrun : (lts α capacity).Run s₀ labels s) :
    s.pushed = pushedValues labels ∧ s.popped = poppedValues labels := by
  induction hrun with
  | nil =>
    subst hinit
    exact ⟨rfl, rfl⟩
  | snoc _ hlast ih =>
    obtain ⟨turn, hstep⟩ := hlast
    obtain ⟨hpushed, hpopped⟩ := step_values hstep
    rw [hpushed, hpopped, ih.1, ih.2]
    simp [pushedValues, poppedValues]

/-- In every run after `Resize(capacity)`, the calls are those of a FIFO of `bit_ceil(capacity)`
places; the values popped are the first of the values pushed, and the difference of the wrapped
indices is the number of values in the queue. -/
theorem run_linearizable (capacity : UInt64) (hcap : capacity.toNat ≤ 2 ^ 63) {s₀ s : State α}
    {labels : List (Event α)} (hinit : (lts α capacity).init s₀)
    (hrun : (lts α capacity).Run s₀ labels s) :
    (fifo α (slotCount capacity)).Run [] labels s.contents ∧
      poppedValues labels <+: (pushedValues labels).map some ∧
      s.q.capacity.toNat = slotCount capacity ∧
      (s.q.head - s.q.tail).toNat = s.contents.length ∧
      s.contents.length ≤ slotCount capacity := by
  have hstart : Holds (slotCount capacity) 0 0 s₀ ∧ s₀.contents = [] := by
    subst hinit
    exact ⟨resize_holds hcap, rfl⟩
  obtain ⟨xs, hfifo, ⟨seenTail, seenHead, h⟩, rfl⟩ :=
    hrun.simulated (M := fifo α (slotCount capacity))
      (R := fun s xs => (∃ seenTail seenHead, Holds (slotCount capacity) seenTail seenHead s) ∧
        s.contents = xs)
      (by
        rintro s _ e t ⟨⟨seenTail, seenHead, h⟩, rfl⟩ ⟨turn, hstep⟩
        obtain ⟨hnext, hfifo⟩ := h.step_keeps hstep
        exact ⟨t.contents, hfifo, hnext, rfl⟩)
      ⟨⟨0, 0, hstart.1⟩, hstart.2⟩
  obtain ⟨hpushed, hpopped⟩ := run_values hinit hrun
  have hoccupied := h.occupied_le
  have hle := h.popped_le_pushed
  have hbound := h.cap_lt
  rw [State.occupied] at hoccupied
  have hprefix : s.popped <+: s.pushed.map some := by
    have hall : s.popped <+: s.written.map some :=
      (List.prefix_append _ _).trans h.taken_prefix
    rw [State.written, List.map_append] at hall
    exact List.prefix_of_prefix_length_le hall (List.prefix_append _ _) (by simpa using hle)
  refine ⟨hfifo, hpopped ▸ hpushed ▸ hprefix, h.capacity_eq, ?_, ?_⟩
  · rw [h.head_eq, h.tail_eq, word_sub_toNat hle (by omega), State.contents, List.length_drop]
  · rw [State.contents, List.length_drop]
    exact hoccupied

/-- One push and the pop of its value, in a queue of four slots. -/
theorem run_linearizable_push_pop :
    ∃ labels s, (lts Nat 3).Run (start Nat 3) labels s ∧ poppedValues labels = [some 7] ∧
      poppedValues labels <+: (pushedValues labels).map some ∧
      s.contents.length ≤ slotCount 3 := by
  let turns : List (Turn Nat) :=
    List.replicate 3 (.producer 7) ++ List.replicate 4 .consumer
  obtain ⟨labels, s, hexec, hpopped⟩ : ∃ labels s,
      Lts.exec step (start Nat 3) turns = some (labels, s) ∧ poppedValues labels = [some 7] :=
    ⟨_, _, rfl, rfl⟩
  have hrun : (lts Nat 3).Run (start Nat 3) labels s := Lts.run_of_exec hexec
  have hmain := run_linearizable 3 (by decide) rfl hrun
  exact ⟨labels, s, hrun, hpopped, hmain.2.1, hmain.2.2.2.2⟩

end Tpcc.Spsc
