import SmallLisp.Proofs.Session.Values

/-!
# `Proofs.Session.Lexical` — the words of a session come from its source texts

No primitive makes a text or a name. So every text, every symbol and every name of a closure that a session
holds was an atom of some source text, and no blank and no parenthesis is in it (`Value.IsLexical`). This goes
for what is inside of lists, and for the formals and body forms of closures.

Symbols were read as symbols: `Source.IsSymbol` leaves out what would be read as a number, a text or a truth
value.
-/

namespace SmallLisp

namespace Source

/-- **The name of a symbol**: an atom that stands for itself. -/
def IsSymbol (name : Text) : Prop := IsAtom name ∧ ofAtom name = .symbol name

end Source

namespace Value

/-- **A value whose words come from source texts.** Texts are made of characters of atoms, symbols and the
    names of closures are symbols of the reader, and nothing was handed in by an embedding program. -/
def IsLexical : Value → Prop
  | .text s => ∀ c ∈ s.toList, Source.isAtomic c
  | .symbol name => Source.IsSymbol name
  | .closure _ _ _ _ name => ∀ s, name = some s → Source.IsSymbol s
  | .embedded _ => False
  | _ => True

end Value

namespace Interpreter

/-- Atoms are lexical, and no step of an evaluation makes a word. -/
theorem permissive_isLexical : Permissive fun n v => v.IsLexical ∧ v.IsOwn ∧ v.CapturesBelow n where
  mono hnk _ h := ⟨h.1, permissive_isOwn.mono hnk h.2⟩
  number n x := ⟨trivial, permissive_isOwn.number n x⟩
  truth n b := ⟨trivial, permissive_isOwn.truth n b⟩
  list n items := ⟨trivial, permissive_isOwn.list n items⟩
  closure hf hn := ⟨fun s hs => (hn s hs).1, permissive_isOwn.closure hf fun s hs => (hn s hs).2⟩
  scope h := permissive_isOwn.scope h.2
  body h := permissive_isOwn.body h.2
  name h s hs := ⟨h.1 s hs, permissive_isOwn.name h.2 s hs⟩
  atom n token h := by
    refine Source.everywhere_ofAtom ?_ ?_ ?_ ?_
    · intro x
      exact ⟨trivial, trivial, trivial⟩
    · intro s hs
      exact ⟨fun c hc => h.2 c (Source.mem_of_unquote? hs c hc), trivial, trivial⟩
    · intro b
      exact ⟨trivial, trivial, trivial⟩
    · intro hsymbol
      exact ⟨⟨h, hsymbol⟩, trivial, trivial⟩
  primitive n r := ⟨trivial, permissive_isOwn.primitive n r⟩
  special n form := ⟨trivial, permissive_isOwn.special n form⟩

/-- What is read is lexical. -/
theorem lexical_of_read {limit : Nat} {source : Text} {v : Value}
    (h : Source.read limit source = .ok v) : v.Everywhere Value.IsLexical :=
  (permissive_isLexical.everywhere_read 0 h).mono fun _ h => h.1

variable {strict : Bool} {output : Stream} {i : Interpreter}

/-- **Sessions are lexical**: all values that they hold are. -/
theorem lexical_of_reachable (h : i.Reachable strict output) (f : FrameId) :
    ∀ b ∈ i.machine.bindings f, b.2.Everywhere Value.IsLexical := fun b hb =>
  ((holds_of_reachable permissive_isLexical h).values f b hb).mono fun _ h => h.1

/-- The value of a source text is lexical. -/
theorem lexical_of_evalSource (h : i.Reachable strict output) {source : Text} {v : Value}
    (hv : (i.evalSource source).1 = .ok v) : v.Everywhere Value.IsLexical := by
  obtain ⟨_, _, houtcome⟩ :=
    holds_evalSource permissive_isLexical (holds_of_reachable permissive_isLexical h) source
  rw [hv] at houtcome
  rcases houtcome with ⟨why, hwhy⟩ | hvalue
  · cases hwhy
  · exact Value.Everywhere.mono hvalue fun _ h => h.1

end Interpreter

end SmallLisp
