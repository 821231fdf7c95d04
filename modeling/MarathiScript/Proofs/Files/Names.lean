/-
  MarathiScript.Proofs.Files.Names — the names of entries, and the order among them.

  Names are compared by their bytes in UTF-8 (`nameBytes`). A character with a greater code has
  greater bytes, whatever follows (`utf8EncodeChar_lt`): more of them are led by a greater first
  byte, and as many hold the digits of the code from the greatest on. So names that are in order
  by their characters are so by their bytes (`nameBytes_lt`).

  The name of an entry has no slash and is none of the words that paths use to stay or to go up
  (`EntryName`). Joined to a path it is the last name of the path (`lastName?_joinPath`). A test is
  told by that name: it starts with `test_` and has the extension of the language
  (`isTestPath_iff`).
-/

import Mathlib.Tactic.SplitIfs
import MarathiScript.Files

namespace MarathiScript

/-! ## Bytes -/

/-- The bytes of a name in UTF-8. -/
def nameBytes (name : String) : List UInt8 := name.toUTF8.data.toList

theorem nameBytes_eq (name : String) :
    nameBytes name = name.toList.flatMap String.utf8EncodeChar := by
  have hbytes : name.toUTF8 = (name.toList.flatMap String.utf8EncodeChar).toByteArray :=
    String.utf8Encode_toList.symm
  rw [nameBytes, hbytes, List.toList_data_toByteArray]

theorem ofNat_cons_lt {m n : Nat} (hm : m < 256) (hn : n < 256) {xs ys : List UInt8} :
    UInt8.ofNat m :: xs < UInt8.ofNat n :: ys ↔ m < n ∨ m = n ∧ xs < ys := by
  rw [List.cons_lt_cons_iff, UInt8.ofNat_lt_iff_lt hm hn, ← UInt8.toNat_inj, UInt8.toNat_ofNat',
    UInt8.toNat_ofNat', Nat.mod_eq_of_lt hm, Nat.mod_eq_of_lt hn]

theorem utf8EncodeChar_lt {c d : Char} (h : c < d) (xs ys : List UInt8) :
    String.utf8EncodeChar c ++ xs < String.utf8EncodeChar d ++ ys := by
  have hcode : c.val.toNat < d.val.toNat := h
  have hbound : d.val.toNat < 0x110000 := by
    rcases d.valid with hd | hd <;> omega
  -- the digits of a code to the base 64, each a quotient of the one before
  have htwo : ∀ n, n / 4096 = n / 64 / 64 := fun n => (Nat.div_div_eq_div_mul n 64 64).symm
  have hthree : ∀ n, n / 262144 = n / 64 / 64 / 64 := by omega
  unfold String.utf8EncodeChar
  simp only [htwo, hthree]
  split_ifs <;> simp (disch := omega) only [List.cons_append, List.nil_append, ofNat_cons_lt] <;> omega

theorem flatMap_utf8EncodeChar_lt {cs ds : List Char} (h : cs < ds) :
    cs.flatMap String.utf8EncodeChar < ds.flatMap String.utf8EncodeChar := by
  induction cs generalizing ds with
  | nil =>
    cases ds with
    | nil => cases h
    | cons d ds =>
      obtain ⟨b, bs, hb⟩ := List.exists_cons_of_ne_nil (String.utf8EncodeChar_ne_nil (c := d))
      rw [List.flatMap_nil, List.flatMap_cons, hb]
      exact List.nil_lt_cons _ _
  | cons c cs ih =>
    cases ds with
    | nil => cases h
    | cons d ds =>
      rw [List.flatMap_cons, List.flatMap_cons]
      rcases List.cons_lt_cons_iff.1 h with hlt | ⟨rfl, hlt⟩
      · exact utf8EncodeChar_lt hlt _ _
      · exact List.append_left_lt (ih hlt)

/-- Names in order by their characters are in order by their bytes. -/
theorem nameBytes_lt {name other : String} (h : name < other) : nameBytes name < nameBytes other := by
  rw [nameBytes_eq, nameBytes_eq]
  exact flatMap_utf8EncodeChar_lt h

/-! ## Names in paths -/

/-- A part of a path that goes down. -/
structure PlainPart (part : List Char) : Prop where
  nonempty : part ≠ []
  notHere : part ≠ ['.']
  notUp : part ≠ ['.', '.']

/-- A name that an entry of a directory can have. -/
structure EntryName (name : String) : Prop where
  plain : PlainPart name.toList
  noSlash : '/' ∉ name.toList

instance (part : List Char) : Decidable (PlainPart part) :=
  decidable_of_iff (part ≠ [] ∧ part ≠ ['.'] ∧ part ≠ ['.', '.'])
    ⟨fun ⟨hnonempty, hhere, hup⟩ => ⟨hnonempty, hhere, hup⟩,
      fun h => ⟨h.nonempty, h.notHere, h.notUp⟩⟩

instance (name : String) : Decidable (EntryName name) :=
  decidable_of_iff (PlainPart name.toList ∧ '/' ∉ name.toList)
    ⟨fun ⟨hplain, hslash⟩ => ⟨hplain, hslash⟩, fun h => ⟨h.plain, h.noSlash⟩⟩

theorem lastName?_of_parts {path : String} {parts : List (List Char)} {part : List Char}
    (h : pathParts path = parts ++ [part]) (hplain : PlainPart part) : lastName? path = some part := by
  have hkept : [part].filter (fun part => part ≠ [] ∧ part ≠ ['.']) = [part] := by
    simp [hplain.nonempty, hplain.notHere]
  rw [lastName?, h, List.filter_append, hkept, List.getLast?_append, List.getLast?_singleton]
  show (if part = ['.', '.'] then none else some part) = some part
  rw [if_neg hplain.notUp]

theorem joinPath_toList (path name : String) :
    ∃ before, (joinPath path name).toList = before ++ '/' :: name.toList := by
  unfold joinPath
  split
  · rename_i hslash
    obtain ⟨before, hbefore⟩ := List.getLast?_eq_some_iff.1 hslash
    exact ⟨before, by rw [String.toList_append, hbefore, List.append_assoc]; rfl⟩
  · refine ⟨path.toList, ?_⟩
    rw [String.toList_append, String.toList_append, List.append_assoc]
    rfl

theorem pathParts_joinPath (path : String) {name : String} (h : EntryName name) :
    ∃ parts, pathParts (joinPath path name) = parts ++ [name.toList] := by
  obtain ⟨before, hbefore⟩ := joinPath_toList path name
  refine ⟨before.splitOn '/', ?_⟩
  rw [pathParts, hbefore, List.splitOn_append_cons_self, List.splitOn_eq_singleton h.noSlash]

theorem lastName?_joinPath (path : String) {name : String} (h : EntryName name) :
    lastName? (joinPath path name) = some name.toList := by
  obtain ⟨parts, hparts⟩ := pathParts_joinPath path h
  exact lastName?_of_parts hparts h.plain

/-! ## Names of tests -/

/-- The extension of a name is what follows its last dot, if something stands before that. -/
def HasExtension (name extension : List Char) : Prop :=
  '.' ∉ extension ∧ ∃ stem, stem ≠ [] ∧ name = stem ++ '.' :: extension

theorem hasExtension_iff {name extension : List Char} : HasExtension name extension ↔
    '.' ∉ extension ∧ '.' :: extension <:+ name ∧ name ≠ '.' :: extension := by
  refine and_congr_right fun _ => ?_
  constructor
  · rintro ⟨stem, hstem, rfl⟩
    exact ⟨⟨stem, rfl⟩, fun heq => hstem (List.append_left_eq_self.1 heq)⟩
  · rintro ⟨⟨stem, rfl⟩, hne⟩
    exact ⟨stem, fun hstem => hne (by rw [hstem, List.nil_append]), rfl⟩

instance (name extension : List Char) : Decidable (HasExtension name extension) :=
  decidable_of_iff _ hasExtension_iff.symm

/-- The name of a test. -/
def IsTestName (name : List Char) : Prop :=
  "test_".toList <+: name ∧ HasExtension name "marathi".toList

instance (name : List Char) : Decidable (IsTestName name) :=
  inferInstanceAs (Decidable (_ ∧ _))

theorem isTestPath_iff {path : String} {name : List Char} (h : lastName? path = some name) :
    isTestPath path = true ↔ IsTestName name := by
  have hdot : ".marathi".toList = '.' :: "marathi".toList := by decide +kernel
  have hnodot : '.' ∉ "marathi".toList := by decide +kernel
  rw [isTestPath, h, Option.any_some, Bool.and_eq_true, List.isPrefixOf_iff_prefix,
    List.isSuffixOf_iff_suffix, hdot, IsTestName, hasExtension_iff]
  refine and_congr_right fun hstart => ?_
  constructor
  · intro hend
    refine ⟨hnodot, hend, ?_⟩
    -- the extension alone does not start with `test_`
    rintro rfl
    have hno : ¬ "test_".toList <+: '.' :: "marathi".toList := by decide +kernel
    exact hno hstart
  · exact fun ⟨_, hend, _⟩ => hend

end MarathiScript
