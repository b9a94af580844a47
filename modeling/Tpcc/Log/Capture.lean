import Tpcc.Lib.Ring
import Mathlib.Data.List.DropRight

/-! `TLogCapture`: the cyclic buffer of the display's log lines, and that it is a window over the
last lines. Each operation holds the mutex, so a run is a list of operations. -/

namespace Tpcc.Log

open Lib

structure TLogCapture where
  lines : List String
  maxLines : Nat
  writePos : Nat
  wrapped : Bool
  deriving DecidableEq

namespace TLogCapture

def new (maxLines : Nat) : TLogCapture where
  lines := List.replicate maxLines ""
  maxLines := maxLines
  writePos := 0
  wrapped := false

def addLine (self : TLogCapture) (line : String) : TLogCapture :=
  let writePos := (self.writePos + 1) % self.maxLines
  { self with
    lines := self.lines.set self.writePos line
    writePos := writePos
    wrapped := self.wrapped || writePos = 0 }

/-- The loop of `GetLines` over the positions from `first` to `last`. -/
def collect (self : TLogCapture) (first last : Nat) : List String :=
  (List.range' first (last - first)).filterMap fun i =>
    self.lines[i]?.filter fun line => !line.isEmpty

def getLines (self : TLogCapture) : List String :=
  if self.wrapped then self.collect self.writePos self.maxLines ++ self.collect 0 self.writePos
  else self.collect 0 self.writePos

def clear (self : TLogCapture) : TLogCapture :=
  { self with lines := self.lines.map fun _ => "", writePos := 0, wrapped := false }

end TLogCapture

/-- A call that changes the buffer. -/
inductive Op
  | addLine (line : String)
  | clear

def TLogCapture.apply (self : TLogCapture) : Op → TLogCapture
  | .addLine line => self.addLine line
  | .clear => self.clear

/-- The lines added since the last `Clear`. -/
def added (ops : List Op) : List String :=
  ops.foldl (fun lines op => match op with
    | .addLine line => lines ++ [line]
    | .clear => []) []

/-- The lines that are shown: those that are not empty. -/
def shown (lines : List String) : List String := lines.filter fun line => !line.isEmpty

/-- The buffer holds the last of some lines, behind empty ones where there are too few: from
`writePos` on they are in their order. -/
structure Holds (capture : TLogCapture) (lines : List String) : Prop where
  capacity : capture.lines.length = capture.maxLines
  writePos : capture.writePos = lines.length % capture.maxLines
  wrapped : capture.wrapped = true ↔ capture.maxLines ≤ lines.length
  window : capture.lines.rotate capture.writePos =
    (List.replicate capture.maxLines "" ++ lines).rtake capture.maxLines

section Window

variable {capture : TLogCapture} {lines : List String}

theorem shown_append (xs ys : List String) : shown (xs ++ ys) = shown xs ++ shown ys :=
  List.filter_append ..

theorem rtake_push {l : List String} {n : Nat} (hpos : 1 ≤ n) (hn : n ≤ l.length)
    (line : String) : ∃ first rest, l.rtake n = first :: rest ∧
      (l ++ [line]).rtake n = rest ++ [line] := by
  have hdrop := List.drop_eq_getElem_cons (show l.length - n < l.length by omega)
  refine ⟨_, _, hdrop, ?_⟩
  rw [List.rtake, List.length_append, List.length_singleton,
    show l.length + 1 - n = l.length - n + 1 by omega,
    List.drop_append_of_le_length (by omega)]

/-- What `collect` reads. -/
theorem collect_eq (first last : Nat) :
    capture.collect first last = shown ((capture.lines.drop first).take (last - first)) := by
  have hrange : ∀ n first, (List.range' first n).filterMap (fun i => capture.lines[i]?) =
      (capture.lines.drop first).take n := by
    intro n
    induction n with
    | zero => simp
    | succ n ih =>
      intro first
      rw [List.range'_succ, List.filterMap_cons, ih]
      cases h : capture.lines[first]? with
      | none =>
        rw [List.getElem?_eq_none_iff] at h
        simp [List.drop_eq_nil_of_le h, List.drop_eq_nil_of_le (Nat.le_succ_of_le h)]
      | some line =>
        obtain ⟨hlt, rfl⟩ := List.getElem?_eq_some_iff.mp h
        rw [List.drop_eq_getElem_cons hlt, List.take_succ_cons]
  rw [shown, ← hrange, List.filter_filterMap]
  rfl

theorem holds_new (maxLines : Nat) (hpos : 1 ≤ maxLines) : Holds (.new maxLines) [] where
  capacity := List.length_replicate
  writePos := by simp [TLogCapture.new]
  wrapped := by simp [TLogCapture.new]; omega
  window := by simp [TLogCapture.new, List.rtake]

theorem Holds.pos_of_pos (h : Holds capture lines) (hpos : 1 ≤ capture.maxLines) :
    capture.writePos < capture.lines.length := by
  rw [h.writePos, h.capacity]
  exact Nat.mod_lt _ hpos

/-- A line is added to the window. -/
theorem Holds.addLine (h : Holds capture lines) (hpos : 1 ≤ capture.maxLines) (line : String) :
    Holds (capture.addLine line) (lines ++ [line]) where
  capacity := by simp [TLogCapture.addLine, h.capacity]
  writePos := by simp [TLogCapture.addLine, h.writePos]
  wrapped := by
    simp only [TLogCapture.addLine, h.writePos, Bool.or_eq_true, h.wrapped, decide_eq_true_eq,
      Nat.mod_add_mod, List.length_append, List.length_singleton]
    constructor
    · rintro (hle | hzero)
      · omega
      · exact Nat.le_of_dvd (Nat.succ_pos _) (Nat.dvd_of_mod_eq_zero hzero)
    · intro hle
      rcases hle.eq_or_lt with heq | hlt
      · exact .inr (by rw [← heq, Nat.mod_self])
      · exact .inl (by omega)
  window := by
    obtain ⟨first, rest, hold, hnew⟩ := rtake_push hpos
      (l := List.replicate capture.maxLines "" ++ lines) (by simp) line
    rw [← List.append_assoc]
    simp only [TLogCapture.addLine]
    rw [hnew, ← h.capacity]
    exact ring_push (h.pos_of_pos hpos) (h.window.trans hold)

theorem Holds.clear (h : Holds capture lines) (hpos : 1 ≤ capture.maxLines) :
    Holds capture.clear [] := by
  have hnew : capture.clear = .new capture.maxLines := by
    simp [TLogCapture.clear, TLogCapture.new, ← h.capacity]
  rw [hnew]
  exact holds_new capture.maxLines hpos

theorem rtake_append_of_le {xs ys : List String} {n : Nat} (h : n ≤ ys.length) :
    (xs ++ ys).rtake n = ys.rtake n := by
  rw [List.rtake, List.rtake, List.length_append, Nat.add_sub_assoc h, List.drop_append,
    List.drop_eq_nil_of_le (by omega), List.nil_append, Nat.add_sub_cancel_left]

theorem rtake_blank {xs : List String} {n : Nat} (h : xs.length ≤ n) :
    (List.replicate n "" ++ xs).rtake n = List.replicate (n - xs.length) "" ++ xs := by
  rw [List.rtake, List.length_append, List.length_replicate, Nat.add_sub_cancel_left,
    List.drop_append_of_le_length (by simpa using h), List.drop_replicate]

/-- What is shown is the window's lines that are not empty. -/
theorem Holds.getLines (h : Holds capture lines) (hpos : 1 ≤ capture.maxLines) :
    capture.getLines = shown (lines.rtake (min lines.length capture.maxLines)) := by
  have hrotate := List.rotate_eq_drop_append_take (h.pos_of_pos hpos).le
  rw [h.window] at hrotate
  have hfirst : capture.collect 0 capture.writePos =
      shown (capture.lines.take capture.writePos) := by simp [collect_eq]
  by_cases hwrapped : capture.maxLines ≤ lines.length
  · -- the two parts of the buffer are the window
    have hlast : capture.collect capture.writePos capture.maxLines =
        shown (capture.lines.drop capture.writePos) := by
      rw [collect_eq, List.take_of_length_le (by simp [h.capacity])]
    rw [TLogCapture.getLines, if_pos (h.wrapped.mpr hwrapped), hfirst, hlast, ← shown_append,
      ← hrotate, rtake_append_of_le hwrapped, Nat.min_eq_right hwrapped]
  · -- behind the lines there are only empty ones
    have hwrite : capture.writePos = lines.length := by
      rw [h.writePos, Nat.mod_eq_of_lt (by omega)]
    rw [rtake_blank (by omega)] at hrotate
    have hlines := (List.append_inj hrotate (by simp [h.capacity, hwrite])).2
    rw [TLogCapture.getLines, if_neg (mt h.wrapped.mp hwrapped), hfirst, ← hlines,
      Nat.min_eq_left (by omega), List.rtake, Nat.sub_self, List.drop_zero]

end Window

/-- The buffer after some calls holds the lines added since the last `Clear`. -/
theorem holds_foldl {maxLines : Nat} (hpos : 1 ≤ maxLines) (ops : List Op) :
    Holds (ops.foldl TLogCapture.apply (.new maxLines)) (added ops) ∧
      (ops.foldl TLogCapture.apply (.new maxLines)).maxLines = maxLines := by
  induction ops using List.reverseRecOn with
  | nil => exact ⟨holds_new maxLines hpos, rfl⟩
  | append_singleton ops op ih =>
    obtain ⟨h, hmax⟩ := ih
    simp only [added, List.foldl_append, List.foldl_cons, List.foldl_nil]
    cases op with
    | addLine line => exact ⟨h.addLine (hpos.trans_eq hmax.symm) line, hmax⟩
    | clear => exact ⟨h.clear (hpos.trans_eq hmax.symm), hmax⟩

/-- After any calls, `GetLines` returns what is not empty of the last lines since the last
`Clear`, as many as there are up to `maxLines`, oldest first. -/
theorem getLines_window (maxLines : Nat) (hpos : 1 ≤ maxLines) (ops : List Op) :
    (ops.foldl TLogCapture.apply (.new maxLines)).getLines =
      shown ((added ops).rtake (min (added ops).length maxLines)) := by
  obtain ⟨h, hmax⟩ := holds_foldl hpos ops
  rw [h.getLines (hpos.trans_eq hmax.symm), hmax]

theorem getLines_window_three :
    1 ≤ 3 ∧ ((.addLine "gone" :: .clear :: ["", "a", "b", "c", "", "d"].map Op.addLine).foldl
      TLogCapture.apply (.new 3)).getLines = ["c", "d"] :=
  ⟨by decide, (getLines_window 3 (by decide) _).trans (by decide)⟩

end Tpcc.Log
