import Routes.Text.Split
/-!
A place in a source text: line and column count from one and the column counts characters, the
offset counts bytes from zero. Line and column are words of 32 bits: behind the largest of them the
count goes on at zero.
-/
namespace Routes

structure Position where
  line : UInt32
  column : UInt32
  offset : Nat
deriving DecidableEq, Repr, Inhabited

namespace Position

def zero : Position := ⟨0, 0, 0⟩

def start : Position := ⟨1, 1, 0⟩

/-- The place behind one character. -/
def step (p : Position) (c : Char) : Position :=
  if c = '\n' then ⟨p.line + 1, 1, p.offset + c.utf8Size⟩
  else ⟨p.line, p.column + 1, p.offset + c.utf8Size⟩

/-- The place behind a text. -/
def advance (p : Position) (cs : List Char) : Position := cs.foldl step p

/-- Line and column, as messages show them. -/
def label (p : Position) : String := toString p.line ++ ":" ++ toString p.column

@[simp] theorem advance_nil (p : Position) : p.advance [] = p := rfl

@[simp] theorem advance_cons (p : Position) (c : Char) (cs : List Char) :
    p.advance (c :: cs) = (p.step c).advance cs := rfl

theorem advance_append (p : Position) (a b : List Char) :
    p.advance (a ++ b) = (p.advance a).advance b := by simp [advance, List.foldl_append]

theorem advance_offset (p : Position) (cs : List Char) :
    (p.advance cs).offset = p.offset + Text.byteLength cs := by
  induction cs generalizing p with
  | nil => simp [Text.byteLength]
  | cons c cs ih =>
    rw [advance_cons, ih]
    simp only [Text.byteLength, step]
    split <;> simp only [] <;> omega

end Position
end Routes
