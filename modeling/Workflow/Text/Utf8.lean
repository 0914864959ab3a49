import Workflow.Digest.Sha256

/-!
# Texts as bytes

The UTF-8 form of a text, and the text of bytes that are in this form.
-/
namespace Workflow.Text

def utf8 (s : String) : Bytes := s.toUTF8.data.toList

def ofUtf8? (bs : Bytes) : Option String := String.fromUTF8? ⟨bs.toArray⟩

theorem ofUtf8?_utf8 (s : String) : ofUtf8? (utf8 s) = some s :=
  dif_pos s.isValidUTF8

end Workflow.Text
