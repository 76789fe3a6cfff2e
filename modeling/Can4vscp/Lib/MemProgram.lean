import Can4vscp.Lib.ReadProgram

/-!
# MemProgram

Programs that read and write a memory, with the indices they read.

A part that only reads is a `ReadProgram` (`ofRead`).  `reads_bind` splits the reads of a
program into those of its parts, each on the memory that the parts before it have left.
-/

open Memory

/-- What a run of a program comes to. -/
structure MemOutcome (α β : Type) where
  value : β
  mem : Mem α
  reads : List Nat

/-- A program over a memory with values in `α`, with result in `β`. -/
def MemProgram (α β : Type) : Type := Mem α → MemOutcome α β

namespace MemProgram

variable {α β γ : Type}

/-- Sequencing. -/
protected def bind (p : MemProgram α β) (f : β → MemProgram α γ) : MemProgram α γ := fun m =>
  let r := p m
  let r' := f r.value r.mem
  ⟨r'.value, r'.mem, r.reads ++ r'.reads⟩

instance : Monad (MemProgram α) where
  pure b := fun m => ⟨b, m, []⟩
  bind := MemProgram.bind

/-- A program that only reads. -/
def ofRead (p : ReadProgram α β) : MemProgram α β := fun m => ⟨p.run m, m, p.trace m⟩

/-- Write one value. -/
def write (i : Nat) (x : α) : MemProgram α Unit := fun m => ⟨(), store m i x, []⟩

/-- Write the values of a list, from index `i` on. -/
def writeAll (i : Nat) (xs : List α) : MemProgram α Unit := fun m => ⟨(), storeAll m i xs, []⟩

/-! ## outcomes -/

@[simp] theorem pure_apply (b : β) (m : Mem α) : (pure b : MemProgram α β) m = ⟨b, m, []⟩ := rfl

@[simp] theorem ofRead_apply (p : ReadProgram α β) (m : Mem α) :
    ofRead p m = ⟨p.run m, m, p.trace m⟩ := rfl

@[simp] theorem write_apply (i : Nat) (x : α) (m : Mem α) :
    write i x m = ⟨(), store m i x, []⟩ := rfl

@[simp] theorem writeAll_apply (i : Nat) (xs : List α) (m : Mem α) :
    writeAll i xs m = ⟨(), storeAll m i xs, []⟩ := rfl

theorem bind_apply (p : MemProgram α β) (f : β → MemProgram α γ) (m : Mem α) :
    (p >>= f) m = ⟨(f (p m).value (p m).mem).value, (f (p m).value (p m).mem).mem,
      (p m).reads ++ (f (p m).value (p m).mem).reads⟩ := rfl

@[simp] theorem value_bind (p : MemProgram α β) (f : β → MemProgram α γ) (m : Mem α) :
    ((p >>= f) m).value = (f (p m).value (p m).mem).value := rfl

@[simp] theorem mem_bind (p : MemProgram α β) (f : β → MemProgram α γ) (m : Mem α) :
    ((p >>= f) m).mem = (f (p m).value (p m).mem).mem := rfl

@[simp] theorem reads_bind (p : MemProgram α β) (f : β → MemProgram α γ) (m : Mem α) :
    ((p >>= f) m).reads = (p m).reads ++ (f (p m).value (p m).mem).reads := rfl

end MemProgram
