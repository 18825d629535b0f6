import Courseware.Document.Tree

/-!
# Entries and their order

What is met when a section is read are entries: prose, tasks and notes. Neighbouring prose counts as
one text, whether it is written as one or as several, so entries are compared after joining.

That two lists of entries do not read the same can be seen from a count. The load of some entries adds
up, for every task and every note, the prose before it. Joining paragraphs does not change the load,
and moving prose before a task raises it.
-/

namespace Courseware

/-- Something that is met when a section is read. -/
inductive Entry
  | prose (text : Text)
  | task (task : Task)
  | note (content : Text)
deriving DecidableEq, Repr

namespace Entry

/-- Put an entry before others. Prose before prose is joined to it by an empty line. -/
def prepend : Entry → List Entry → List Entry
  | prose first, prose second :: rest => prose (first ++ '\n' :: '\n' :: second) :: rest
  | entry, entries => entry :: entries

/-- Entries in which neighbouring prose has been joined. -/
def joined (entries : List Entry) : List Entry := entries.foldr prepend []

/-- The size of prose, with the empty line that would follow it. -/
def size : Entry → Nat
  | prose text => text.length + 2
  | task _ | note _ => 0

/-- How often an entry counts the prose before it. -/
def mark : Entry → Nat
  | prose _ => 0
  | task _ | note _ => 1

/-- How much prose there is. -/
def weight : List Entry → Nat
  | [] => 0
  | entry :: rest => entry.size + weight rest

/-- How many entries are no prose. -/
def marks : List Entry → Nat
  | [] => 0
  | entry :: rest => entry.mark + marks rest

/-- The prose before each entry that is none, added up. Before all of them there is already prose of
the weight `carried`. -/
def load (carried : Nat) : List Entry → Nat
  | [] => 0
  | entry :: rest => entry.mark * carried + load (carried + entry.size) rest

/-! ## Joining -/

theorem joined_cons (entry : Entry) (rest : List Entry) :
    joined (entry :: rest) = prepend entry (joined rest) := rfl

/-- Three pieces of prose can be joined from either end. -/
theorem prepend_prepend (first second : Text) (entries : List Entry) :
    prepend (prose first) (prepend (prose second) entries) =
      prepend (prose (first ++ '\n' :: '\n' :: second)) entries := by
  cases entries with
  | nil => rfl
  | cons entry rest =>
    cases entry with
    | prose text => simp only [prepend, List.append_assoc, List.cons_append]
    | task task => rfl
    | note content => rfl

theorem foldr_prepend (entry : Entry) (entries after : List Entry) :
    (prepend entry entries).foldr prepend after = prepend entry (entries.foldr prepend after) := by
  cases entry with
  | task task => rfl
  | note content => rfl
  | prose text =>
    cases entries with
    | nil => rfl
    | cons next rest =>
      cases next with
      | prose other => exact (prepend_prepend text other _).symm
      | task task => rfl
      | note content => rfl

/-- Entries can be joined part by part. -/
theorem joined_append (first second : List Entry) :
    joined (first ++ second) = (joined first).foldr prepend (joined second) := by
  induction first with
  | nil => rfl
  | cons entry rest ih =>
    rw [List.cons_append, joined_cons, ih, joined_cons, foldr_prepend]

/-- Entries that read the same do so also with others around them. -/
theorem joined_append_congr {first first' second second' : List Entry}
    (hfirst : joined first = joined first') (hsecond : joined second = joined second') :
    joined (first ++ second) = joined (first' ++ second') := by
  rw [joined_append, joined_append, hfirst, hsecond]

/-- Paragraphs are joined to one piece of prose. -/
theorem joined_map_prose {texts : List Text} (h : texts ≠ []) :
    joined (texts.map prose) = [prose (Text.join ['\n', '\n'] texts)] := by
  induction texts with
  | nil => exact absurd rfl h
  | cons text rest ih =>
    cases rest with
    | nil => simp [joined, prepend, Text.join]
    | cons next others =>
      rw [List.map_cons, joined_cons, ih (List.cons_ne_nil _ _), prepend, Text.join, Text.join,
        List.intercalate_cons_cons, List.append_assoc]
      rfl

/-! ## Counting -/

@[simp]
theorem weight_append (first second : List Entry) :
    weight (first ++ second) = weight first + weight second := by
  induction first with
  | nil => exact (Nat.zero_add _).symm
  | cons entry rest ih => rw [List.cons_append, weight, weight, ih, Nat.add_assoc]

theorem marks_append (first second : List Entry) :
    marks (first ++ second) = marks first + marks second := by
  induction first with
  | nil => exact (Nat.zero_add _).symm
  | cons entry rest ih => rw [List.cons_append, marks, marks, ih, Nat.add_assoc]

/-- A task at the end is no prose. -/
theorem marks_append_task (entries : List Entry) (last : Task) :
    0 < marks (entries ++ [task last]) := by
  rw [marks_append]
  exact Nat.lt_add_left _ Nat.one_pos

/-- Loads are added part by part: the second part carries what the first one weighs. -/
theorem load_append (carried : Nat) (first second : List Entry) :
    load carried (first ++ second) = load carried first + load (carried + weight first) second := by
  induction first generalizing carried with
  | nil => exact (Nat.zero_add _).symm
  | cons entry rest ih =>
    rw [List.cons_append, load, load, ih, weight, Nat.add_assoc, Nat.add_assoc]

/-- More prose before some entries counts once for each of them that is no prose. -/
theorem load_add (carried more : Nat) (entries : List Entry) :
    load (carried + more) entries = load carried entries + marks entries * more := by
  induction entries generalizing carried with
  | nil => simp [load, marks]
  | cons entry rest ih =>
    rw [load, load, marks, Nat.add_right_comm, ih, Nat.mul_add, Nat.add_mul]
    omega

theorem weight_prepend (entry : Entry) (entries : List Entry) :
    weight (prepend entry entries) = weight (entry :: entries) := by
  unfold prepend
  split
  · simp only [weight, size, List.length_append, List.length_cons]
    omega
  · rfl

theorem load_prepend (carried : Nat) (entry : Entry) (entries : List Entry) :
    load carried (prepend entry entries) = load carried (entry :: entries) := by
  unfold prepend
  split
  · simp only [load, mark, size, List.length_append, List.length_cons, Nat.zero_mul, Nat.zero_add]
    congr 1
    omega
  · rfl

/-- Joining does not change how much prose there is. -/
theorem weight_joined (entries : List Entry) : weight (joined entries) = weight entries := by
  induction entries with
  | nil => rfl
  | cons entry rest ih => rw [joined_cons, weight_prepend, weight, weight, ih]

/-- Joining does not change how much prose there is before each entry. -/
theorem load_joined (carried : Nat) (entries : List Entry) :
    load carried (joined entries) = load carried entries := by
  induction entries generalizing carried with
  | nil => rfl
  | cons entry rest ih => rw [joined_cons, load_prepend, load, load, ih]

/-! ## Agreement -/

/-- How written entries compare with those that were read, of which they keep all prose. They read the
same as long as none was moved, and carry a greater load once some was. -/
def Agree (moved : Bool) (written read : List Entry) : Prop :=
  weight written = weight read ∧
    if moved then load 0 read < load 0 written else joined written = joined read

namespace Agree

variable {moved : Bool} {written read : List Entry}

/-- Entries that were written read like those that were read exactly when no prose was moved. -/
theorem joined_eq_iff (agree : Agree moved written read) :
    joined written = joined read ↔ moved = false := by
  obtain ⟨_, hcompare⟩ := agree
  cases moved with
  | false => exact ⟨fun _ => rfl, fun _ => hcompare⟩
  | true =>
    constructor
    · intro hjoined
      have hload := congrArg (load 0) hjoined
      rw [load_joined, load_joined] at hload
      rw [if_pos rfl, hload] at hcompare
      exact absurd hcompare (Nat.lt_irrefl _)
    · intro h
      exact nomatch h

/-- Entries that agree still do when the same entries follow. -/
theorem append (agree : Agree moved written read) (entries : List Entry) :
    Agree moved (written ++ entries) (read ++ entries) := by
  obtain ⟨hweight, hcompare⟩ := agree
  refine ⟨by rw [weight_append, weight_append, hweight], ?_⟩
  cases moved with
  | false => exact joined_append_congr hcompare rfl
  | true =>
    rw [if_pos rfl] at hcompare ⊢
    rw [load_append, load_append, hweight]
    exact Nat.add_lt_add_right hcompare _

/-- Written entries can be replaced by others that read the same. -/
theorem congr {rewritten : List Entry} (agree : Agree moved written read)
    (h : joined rewritten = joined written) : Agree moved rewritten read := by
  obtain ⟨hweight, hcompare⟩ := agree
  have hsame : weight rewritten = weight written := by
    rw [← weight_joined, h, weight_joined]
  have hload : load 0 rewritten = load 0 written := by
    rw [← load_joined, h, load_joined]
  refine ⟨hsame.trans hweight, ?_⟩
  rw [h, hload]
  exact hcompare

/-- Moving prose before entries that are not all prose is seen in what is written from then on. -/
theorem move {before passed : List Entry} {text : Text}
    (agree : Agree moved (before ++ passed ++ [prose text]) read) (h : 0 < marks passed) :
    Agree true (before ++ [prose text] ++ passed) read := by
  obtain ⟨hweight, hcompare⟩ := agree
  have hless : load 0 (before ++ passed ++ [prose text]) <
      load 0 (before ++ [prose text] ++ passed) := by
    have hpassed := load_add (0 + weight before) (prose text).size passed
    have hmoved : 0 < marks passed * (prose text).size :=
      Nat.mul_pos h (Nat.succ_pos _)
    have hweightText : weight [prose text] = (prose text).size := rfl
    have hnone : ∀ carried, load carried [prose text] = 0 := fun carried => by
      simp [load, mark]
    rw [load_append, load_append, load_append, load_append, hnone, hnone, weight_append, hweightText,
      ← Nat.add_assoc, hpassed]
    omega
  refine ⟨?_, ?_⟩
  · rw [← hweight]
    simp only [weight_append]
    omega
  · rw [if_pos rfl]
    cases moved with
    | true =>
      rw [if_pos rfl] at hcompare
      exact Nat.lt_trans hcompare hless
    | false =>
      rw [if_neg Bool.false_ne_true] at hcompare
      have hload := congrArg (load 0) hcompare
      rw [load_joined, load_joined] at hload
      rwa [← hload]

end Agree
end Entry
end Courseware
