import DocSplice.Text

/-!
# DocSplice.Encoding

Texts as bytes, in UTF-8.

* `Text.encode`, `Text.decode?`: each text has one encoding (`encode_inj`), and not all bytes encode a
  text.
-/

namespace DocSplice
namespace Text

/-- The bytes of a text. -/
def encode (t : Text) : ByteArray := (String.ofList t).toUTF8

/-- The text that bytes encode. -/
def decode? (bytes : ByteArray) : Option Text := (String.fromUTF8? bytes).map String.toList

@[simp] theorem decode?_encode (t : Text) : decode? t.encode = some t := by
  have h : String.fromUTF8? (String.ofList t).toUTF8 = some (String.ofList t) := by
    simp only [String.fromUTF8?, String.toUTF8_eq_toByteArray, dif_pos (String.isValidUTF8 _)]
    rfl
  rw [decode?, encode, h, Option.map_some, String.toList_ofList]

theorem encode_inj {s t : Text} : s.encode = t.encode ↔ s = t := by
  constructor
  · intro h
    have hdecode := congrArg decode? h
    rw [decode?_encode, decode?_encode] at hdecode
    exact Option.some.inj hdecode
  · rintro rfl
    rfl

end Text
end DocSplice
