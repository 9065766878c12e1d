import SmallLisp.Text.Utf8

/-!
# `SmallLisp.Stream`: output streams

What is printed goes to an output stream. A stream of texts writes every text. A stream of octets refuses the
texts for which its encoding has none, and nothing of such a text is written.
-/

namespace SmallLisp

/-- An output stream: what it says to a text that it refuses to write. -/
structure Stream where
  refusal? : Text → Option String

namespace Stream

/-- The stream writes every text. -/
def TakesAll (output : Stream) : Prop := ∀ s, output.refusal? s = none

/-- A stream of texts. -/
def texts : Stream := ⟨fun _ => none⟩

/-- A stream of the octets of UTF-8. -/
def utf8 : Stream := ⟨fun s => (Text.Utf8.unencodable? s).map Text.Utf8.Unencodable.message⟩

theorem texts_takesAll : texts.TakesAll := fun _ => rfl

end Stream

end SmallLisp
