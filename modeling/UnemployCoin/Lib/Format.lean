import Mathlib.Data.List.Basic
import Mathlib.Tactic.Common
/-!
# Formats with one encoding for each value

A format reads values from the front of a stream and writes them.  It carries two laws: a value that
can be written is read back, whatever follows, and **what is read is what would be written**.  So no
two encodings denote one value.
-/

/-- A way to read and to write values of a type. -/
structure Format (β α : Type*) where
  read : List β → Option (α × List β)
  write : α → List β
  valid : α → Prop
  reads : ∀ a rest, valid a → read (write a ++ rest) = some (a, rest)
  only : ∀ s a rest, read s = some (a, rest) → valid a ∧ s = write a ++ rest

namespace Format

variable {β α γ : Type*}

def seq (f : Format β α) (g : Format β γ) : Format β (α × γ) where
  read s := (f.read s).bind fun p => (g.read p.2).map fun q => ((p.1, q.1), q.2)
  write a := f.write a.1 ++ g.write a.2
  valid a := f.valid a.1 ∧ g.valid a.2
  reads := by
    rintro ⟨a, c⟩ rest ⟨ha, hc⟩
    rw [List.append_assoc, f.reads a _ ha, Option.bind_some, g.reads c rest hc]
    rfl
  only := by
    rintro s ⟨a, c⟩ rest h
    obtain ⟨⟨a', t⟩, hfirst, h⟩ := Option.bind_eq_some_iff.1 h
    obtain ⟨⟨c', rest'⟩, hsecond, h⟩ := Option.map_eq_some_iff.1 h
    cases h
    obtain ⟨ha, rfl⟩ := f.only s a' t hfirst
    obtain ⟨hc, rfl⟩ := g.only t c' rest' hsecond
    exact ⟨⟨ha, hc⟩, (List.append_assoc _ _ _).symm⟩

/-- Records in place of what they are made of.  A record that does not come from it is not valid. -/
def iso (f : Format β α) (make : α → γ) (parts : γ → α) (hparts : ∀ a, parts (make a) = a) :
    Format β γ where
  read s := (f.read s).map fun p => (make p.1, p.2)
  write c := f.write (parts c)
  valid c := f.valid (parts c) ∧ make (parts c) = c
  reads := by
    rintro c rest ⟨hvalid, hc⟩
    rw [f.reads _ rest hvalid, Option.map_some, hc]
  only := by
    intro s c rest h
    obtain ⟨⟨a, rest'⟩, hread, h⟩ := Option.map_eq_some_iff.1 h
    cases h
    obtain ⟨ha, hs⟩ := f.only s a rest' hread
    rw [hparts]
    exact ⟨⟨ha, rfl⟩, hs⟩

@[simp]
def readTimes (f : Format β α) : ℕ → List β → Option (List α × List β)
  | 0, s => some ([], s)
  | n + 1, s => (f.read s).bind fun p => (f.readTimes n p.2).map fun q => (p.1 :: q.1, q.2)

theorem readTimes_write (f : Format β α) {l : List α} (rest : List β) (h : ∀ a ∈ l, f.valid a) :
    f.readTimes l.length (l.flatMap f.write ++ rest) = some (l, rest) := by
  induction l with
  | nil => rfl
  | cons a l ih =>
    rw [List.forall_mem_cons] at h
    rw [List.length_cons, List.flatMap_cons, List.append_assoc, readTimes, f.reads a _ h.1,
      Option.bind_some, ih h.2]
    rfl

theorem readTimes_only (f : Format β α) {n : ℕ} {s rest : List β} {l : List α}
    (h : f.readTimes n s = some (l, rest)) :
    l.length = n ∧ (∀ a ∈ l, f.valid a) ∧ s = l.flatMap f.write ++ rest := by
  induction n generalizing s l with
  | zero =>
    cases h
    exact ⟨rfl, by simp, rfl⟩
  | succ n ih =>
    obtain ⟨⟨a, t⟩, hfirst, h⟩ := Option.bind_eq_some_iff.1 h
    obtain ⟨⟨l', rest'⟩, hrest, h⟩ := Option.map_eq_some_iff.1 h
    cases h
    obtain ⟨ha, rfl⟩ := f.only s a t hfirst
    obtain ⟨hlen, hl, rfl⟩ := ih hrest
    refine ⟨congrArg (· + 1) hlen, List.forall_mem_cons.2 ⟨ha, hl⟩, ?_⟩
    rw [List.flatMap_cons, List.append_assoc]

theorem readTimes_add (f : Format β α) (m n : ℕ) (s : List β) :
    f.readTimes (m + n) s = (f.readTimes m s).bind fun p =>
      (f.readTimes n p.2).map fun q => (p.1 ++ q.1, q.2) := by
  induction m generalizing s with
  | zero =>
    rw [Nat.zero_add]
    exact Option.map_id'.symm
  | succ m ih =>
    rw [Nat.succ_add, readTimes, readTimes]
    cases f.read s with
    | none => rfl
    | some p =>
      rw [Option.bind_some, Option.bind_some, ih, Option.map_bind, Option.bind_map]
      congr 1
      funext q
      rw [Function.comp, Option.map_map]
      rfl

def vector (count : Format β ℕ) (f : Format β α) : Format β (List α) where
  read s := (count.read s).bind fun p => f.readTimes p.1 p.2
  write l := count.write l.length ++ l.flatMap f.write
  valid l := count.valid l.length ∧ ∀ a ∈ l, f.valid a
  reads := by
    rintro l rest ⟨hcount, hl⟩
    rw [List.append_assoc, count.reads _ _ hcount, Option.bind_some]
    exact f.readTimes_write rest hl
  only := by
    intro s l rest h
    obtain ⟨⟨n, t⟩, hcount, h⟩ := Option.bind_eq_some_iff.1 h
    have htimes : f.readTimes n t = some (l, rest) := h
    obtain ⟨hn, rfl⟩ := count.only s n t hcount
    obtain ⟨rfl, hl, rfl⟩ := f.readTimes_only htimes
    exact ⟨⟨hn, hl⟩, (List.append_assoc _ _ _).symm⟩

end Format
