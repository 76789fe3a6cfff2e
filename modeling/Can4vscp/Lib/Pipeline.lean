/-!
# Pipeline

Two parties in a row, joined by lines that lose nothing: the first reads values
from one line and writes values to the next, which the second reads.

The parties read whenever they like.  `settle` is where they get if they read
all there is; reading does not change it (`settle_first`, `settle_second`), so
an invariant about settled states only has to look at what is put on the first
line (`settle_push`).
-/

namespace Pipeline

variable {σ τ α β : Type}

/-- Read values one by one, collecting what is written. -/
def transduce (f : σ → α → σ × List β) : σ → List α → σ × List β
  | s, [] => (s, [])
  | s, a :: as =>
    let (t, out) := f s a
    let (u, out') := transduce f t as
    (u, out ++ out')

theorem transduce_append (f : σ → α → σ × List β) (s : σ) (xs ys : List α) :
    transduce f s (xs ++ ys) =
      ((transduce f (transduce f s xs).1 ys).1,
        (transduce f s xs).2 ++ (transduce f (transduce f s xs).1 ys).2) := by
  induction xs generalizing s with
  | nil => simp [transduce]
  | cons a xs ih => simp [transduce, ih]

/-- The parties and what is on the lines before them. -/
structure Pipe (σ τ α β : Type) where
  first : σ
  line₁ : List α
  second : τ
  line₂ : List β

variable (f : σ → α → σ × List β) (g : τ → β → τ)

/-- Where the parties get if they read all there is. -/
def settle (p : Pipe σ τ α β) : σ × τ :=
  ((transduce f p.first p.line₁).1,
    (p.line₂ ++ (transduce f p.first p.line₁).2).foldl g p.second)

variable {f} {g}

/-- The first party reads one value. -/
theorem settle_first (p : Pipe σ τ α β) {a : α} {as : List α} (h : p.line₁ = a :: as) :
    settle f g { p with
      first := (f p.first a).1
      line₁ := as
      line₂ := p.line₂ ++ (f p.first a).2 } = settle f g p := by
  simp [settle, h, transduce]

/-- The second party reads some values. -/
theorem settle_second (p : Pipe σ τ α β) {used left : List β} (h : p.line₂ = used ++ left) :
    settle f g { p with second := used.foldl g p.second, line₂ := left } = settle f g p := by
  simp [settle, h, List.foldl_append]

/-- Values are put on the first line. -/
theorem settle_push (p : Pipe σ τ α β) (as : List α) :
    settle f g { p with line₁ := p.line₁ ++ as } =
      ((transduce f (settle f g p).1 as).1,
        (transduce f (settle f g p).1 as).2.foldl g (settle f g p).2) := by
  simp [settle, transduce_append, List.foldl_append]

variable (f) in
/-- What the second party will have to read when the first has read all there is. -/
def ahead (p : Pipe σ τ α β) : List β := p.line₂ ++ (transduce f p.first p.line₁).2

/-- The first party reads one value. -/
theorem ahead_first (p : Pipe σ τ α β) {a : α} {as : List α} (h : p.line₁ = a :: as) :
    ahead f { p with
      first := (f p.first a).1
      line₁ := as
      line₂ := p.line₂ ++ (f p.first a).2 } = ahead f p := by
  simp [ahead, h, transduce]

/-- Values are put on the first line. -/
theorem ahead_push (p : Pipe σ τ α β) (as : List α) :
    ahead f { p with line₁ := p.line₁ ++ as } =
      ahead f p ++ (transduce f (transduce f p.first p.line₁).1 as).2 := by
  simp [ahead, transduce_append]

/-- With empty lines the parties have settled. -/
theorem settle_empty (p : Pipe σ τ α β) (h₁ : p.line₁ = []) (h₂ : p.line₂ = []) :
    settle f g p = (p.first, p.second) := by
  simp [settle, h₁, h₂, transduce]

end Pipeline
