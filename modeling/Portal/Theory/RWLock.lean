/-
# Theory.RWLock — a lock for many readers or one writer

`rlock` and `lock` are `none` where the caller has to wait.  Whoever reads, there is no
writer (`writer_of_reader`): no value of the type has both.
-/
import Mathlib.Init

namespace Portal.Theory

set_option autoImplicit false

universe u

/-- Who reads and who writes. -/
structure RWLock (ι : Type u) where
  writer : Option ι
  readers : List ι
  exclusive : writer ≠ none → readers = []

namespace RWLock

variable {ι : Type u}

def free : RWLock ι := ⟨none, [], fun _ => rfl⟩

def rlock (l : RWLock ι) (i : ι) : Option (RWLock ι) :=
  match l.writer with
  | some _ => none
  | none => some ⟨none, i :: l.readers, fun writes => absurd rfl writes⟩

def runlock [DecidableEq ι] (l : RWLock ι) (i : ι) : RWLock ι :=
  ⟨l.writer, l.readers.erase i, fun writes => by rw [l.exclusive writes]; rfl⟩

def lock (l : RWLock ι) (i : ι) : Option (RWLock ι) :=
  match l.writer, l.readers with
  | none, [] => some ⟨some i, [], fun _ => rfl⟩
  | _, _ => none

def unlock (l : RWLock ι) : RWLock ι := ⟨none, l.readers, fun writes => absurd rfl writes⟩

variable {l l' : RWLock ι} {i j : ι}

theorem writer_of_reader (reads : i ∈ l.readers) : l.writer = none := by
  cases held : l.writer with
  | none => rfl
  | some j =>
      rw [l.exclusive (by rw [held]; exact Option.some_ne_none j)] at reads
      cases reads

theorem rlock_some (taken : l.rlock i = some l') :
    l.writer = none ∧ l'.writer = none ∧ l'.readers = i :: l.readers := by
  unfold rlock at taken
  split at taken <;> cases taken
  exact ⟨‹_›, rfl, rfl⟩

theorem lock_some (taken : l.lock i = some l') :
    l.writer = none ∧ l.readers = [] ∧ l'.writer = some i := by
  unfold lock at taken
  split at taken <;> cases taken
  exact ⟨‹_›, ‹_›, rfl⟩

theorem mem_runlock [DecidableEq ι] (other : j ≠ i) (reads : j ∈ l.readers) :
    j ∈ (l.runlock i).readers :=
  (List.mem_erase_of_ne other).mpr reads

end RWLock

end Portal.Theory
