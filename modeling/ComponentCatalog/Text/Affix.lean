/-!
# Beginnings and endings of texts

File names, type names and property names are recognised by how they begin or
end. The tests are made on the characters of a text, and so are the cuts: what
begins or ends with a text is that text with something after or before it, and
cutting gives that back.
-/

namespace ComponentCatalog.Text

/-- Whether a text begins with another one. -/
def startsWith (s start : String) : Bool :=
  start.toList.isPrefixOf s.toList

/-- Whether a text ends with another one. -/
def endsWith (s ending : String) : Bool :=
  ending.toList.isSuffixOf s.toList

/-- A text without its first `n` characters. -/
def dropFirst (s : String) (n : Nat) : String :=
  String.ofList (s.toList.drop n)

/-- A text without its last `n` characters. -/
def dropLast (s : String) (n : Nat) : String :=
  String.ofList (s.toList.take (s.toList.length - n))

theorem startsWith_iff {s start : String} :
    startsWith s start = true ↔ ∃ rest, s = start ++ rest := by
  rw [startsWith, List.isPrefixOf_iff_prefix]
  constructor
  · rintro ⟨rest, h⟩
    refine ⟨.ofList rest, String.toList_inj.1 ?_⟩
    rw [String.toList_append, String.toList_ofList, h]
  · rintro ⟨rest, rfl⟩
    rw [String.toList_append]
    exact List.prefix_append _ _

theorem endsWith_iff {s ending : String} :
    endsWith s ending = true ↔ ∃ front, s = front ++ ending := by
  rw [endsWith, List.isSuffixOf_iff_suffix]
  constructor
  · rintro ⟨front, h⟩
    refine ⟨.ofList front, String.toList_inj.1 ?_⟩
    rw [String.toList_append, String.toList_ofList, h]
  · rintro ⟨front, rfl⟩
    rw [String.toList_append]
    exact List.suffix_append _ _

theorem dropFirst_append (start rest : String) : dropFirst (start ++ rest) start.length = rest := by
  rw [dropFirst, String.toList_append, ← String.length_toList, List.drop_left,
    String.ofList_toList]

theorem dropLast_append (front ending : String) :
    dropLast (front ++ ending) ending.length = front := by
  have hlength : (front ++ ending).toList.length - ending.length = front.toList.length := by
    rw [String.toList_append, List.length_append, ← String.length_toList, Nat.add_sub_cancel]
  rw [dropLast, hlength, String.toList_append, List.take_left, String.ofList_toList]

end ComponentCatalog.Text
