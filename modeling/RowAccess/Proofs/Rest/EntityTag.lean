import RowAccess.Proofs.Outcome
import RowAccess.Proofs.Text.Integer
import RowAccess.Rest.EntityTag

/-!
# Tags and the versions they name

A write names the versions that it expects by their tags, strong or weak, or any version by a star,
in a list with commas between and blanks around the entries. Reading undoes writing: whatever the
blanks and the marks are, such a list names the versions that it was written from and no others
(`names_listing_iff`). For this the text of a version has to be free of everything that separates
and surrounds it, and different versions need different texts.
-/

namespace RowAccess.EntityTag

/-! ## Lists of tags -/

/-- What an entry of a list names: any version, or a single one by its tag, which may be marked as
weak. -/
inductive Named where
  | any
  | tag (weak : Bool) (version : Int)

namespace Named

def text : Named → List Char
  | any => ['*']
  | tag weak version => (if weak then ['W', '/'] else []) ++ (ofVersion version).toList

/-- An entry names a version. -/
def Admits : Named → Int → Prop
  | any, _ => True
  | tag _ named, version => version = named

end Named

/-- An entry of a list, with the blanks around it. -/
structure Entry where
  before : List Char := []
  named : Named
  after : List Char := []
  padding : (before ++ after).all (fun c ↦ c == ' ' || c == '\t') = true := by decide

def Entry.text (e : Entry) : List Char := e.before ++ (e.named.text ++ e.after)

def listing (entries : List Entry) : String :=
  String.ofList ([','].intercalate (entries.map Entry.text))

/-! ## The text of a list -/

theorem toList_ofVersion (version : Int) :
    (ofVersion version).toList = '"' :: ((Text.writeInt version).toList ++ ['"']) := by
  simp [ofVersion]

theorem Named.mem_text {c : Char} {named : Named} (h : c ∈ named.text) :
    c ∈ ['*', 'W', '/', '"', '-'] ∨ Text.isDigit c = true := by
  cases named with
  | any =>
    obtain rfl := List.mem_singleton.mp h
    exact .inl (by decide)
  | tag weak version =>
    rw [text, toList_ofVersion, List.mem_append, List.mem_cons, List.mem_append,
      List.mem_singleton] at h
    rcases h with h | rfl | h | rfl
    · cases weak with
      | false => exact absurd h List.not_mem_nil
      | true => exact .inl (List.mem_cons_of_mem _ (List.mem_append_left ['"', '-'] h))
    · exact .inl (by decide)
    · refine (Text.mem_writeInt h).imp_left fun hminus ↦ ?_
      rw [hminus]
      decide
    · exact .inl (by decide)

theorem Entry.mem_padding {c : Char} {e : Entry} (h : c ∈ e.before ++ e.after) :
    c = ' ' ∨ c = '\t' := by
  simpa using List.all_eq_true.mp e.padding c h

theorem Entry.mem_text {c : Char} {e : Entry} (h : c ∈ e.text) :
    c ∈ ['*', 'W', '/', '"', '-', ' ', '\t'] ∨ Text.isDigit c = true := by
  rw [text, List.mem_append, List.mem_append] at h
  have hpadding : c ∈ e.before ++ e.after → c ∈ [' ', '\t'] := fun hc ↦ by
    simpa using Entry.mem_padding hc
  rcases h with h | h | h
  · exact .inl (List.mem_append_right ['*', 'W', '/', '"', '-']
      (hpadding (List.mem_append_left _ h)))
  · exact (Named.mem_text h).imp_left (List.mem_append_left [' ', '\t'])
  · exact .inl (List.mem_append_right ['*', 'W', '/', '"', '-']
      (hpadding (List.mem_append_right _ h)))

theorem comma_not_mem_text (e : Entry) : ',' ∉ e.text := fun h ↦
  (Entry.mem_text h).elim (by decide) (by decide)

theorem isVisible_of_mem_text {c : Char} {e : Entry} (h : c ∈ e.text) :
    Headers.isVisible c = true := by
  rcases Entry.mem_text h with hmark | hdigit
  · have hvisible : ['*', 'W', '/', '"', '-', ' ', '\t'].all Headers.isVisible = true := by decide
    exact List.all_eq_true.mp hvisible c hmark
  · rw [Text.isDigit, Bool.and_eq_true, decide_eq_true_eq, decide_eq_true_eq] at hdigit
    rw [Headers.isVisible, Bool.or_eq_true, Bool.and_eq_true, decide_eq_true_eq, decide_eq_true_eq]
    exact .inr ⟨Char.le_trans (by decide) hdigit.1, Char.le_trans hdigit.2 (by decide)⟩

theorem splitOn_listing {entries : List Entry} (hne : entries ≠ []) :
    Text.splitOn ',' (listing entries).toList = entries.map Entry.text := by
  rw [listing, String.toList_ofList,
    Text.splitOn_intercalate (mt List.map_eq_nil_iff.mp hne) fun piece hpiece ↦ ?_]
  obtain ⟨e, -, rfl⟩ := List.mem_map.mp hpiece
  exact comma_not_mem_text e

theorem text?_listing {h : Headers} {entries : List Entry}
    (hfirst : h.first? "if-match" = some (listing entries)) :
    h.text? "if-match" = .ok (some (listing entries)) := by
  have hvisible : (listing entries).toList.all Headers.isVisible = true := by
    rw [List.all_eq_true, listing, String.toList_ofList]
    intro c hc
    rcases Text.mem_intercalate hc with rfl | ⟨piece, hpiece, hmem⟩
    · decide
    · obtain ⟨e, -, rfl⟩ := List.mem_map.mp hpiece
      exact isVisible_of_mem_text hmem
  rw [Headers.text?, hfirst]
  exact if_pos hvisible

/-! ## What a list names -/

theorem strip_text (e : Entry) : Text.strip Text.isBlank e.text = e.named.text := by
  have hblank : ∀ c ∈ e.before ++ e.after, Text.isBlank c = true := fun c hc ↦ by
    rcases Entry.mem_padding hc with rfl | rfl <;> decide
  have hfilled : ∀ c ∈ e.named.text, Text.isBlank c = false := fun c hc ↦ by
    rcases Named.mem_text hc with hmark | hdigit
    · have hplain : ['*', 'W', '/', '"', '-'].any Text.isBlank = false := by decide
      exact Bool.eq_false_iff.mpr (List.any_eq_false.mp hplain c hmark)
    · exact Text.isBlank_of_isDigit hdigit
  exact Text.strip_padded (fun c hc ↦ hblank c (List.mem_append_left _ hc))
    (fun c hc ↦ hblank c (List.mem_append_right _ hc))
    (fun c hc ↦ hfilled c (List.mem_of_head? hc)) fun c hc ↦ hfilled c (List.mem_of_getLast? hc)

theorem dropWeak_tag (weak : Bool) (version : Int) :
    dropWeak (Named.tag weak version).text = (ofVersion version).toList := by
  rw [Named.text, toList_ofVersion]
  cases weak with
  | false =>
    rw [if_neg Bool.false_ne_true, List.nil_append, dropWeak]
    exact fun _ h ↦ nomatch h
  | true =>
    rw [if_pos rfl, List.cons_append, List.cons_append, List.nil_append, dropWeak, dropWeak]
    exact fun _ h ↦ nomatch h

/-- What stands between the quotes of an entry is the text of the version. -/
theorem name_text (e : Entry) :
    name e.text = match e.named with
      | .any => ['*']
      | .tag _ version => (Text.writeInt version).toList := by
  rw [name, strip_text]
  cases e.named with
  | any => rfl
  | tag weak version =>
    have hquote : ∀ c ∈ (Text.writeInt version).toList, (c == '"') = false := fun c hc ↦
      beq_eq_false_iff_ne.mpr fun e ↦
        Text.not_mem_writeInt (by decide) (by decide) version (e ▸ hc)
    have hquotes : ∀ c ∈ ['"'], (c == '"') = true := fun c hc ↦
      beq_iff_eq.mpr (List.mem_singleton.mp hc)
    rw [dropWeak_tag, toList_ofVersion]
    exact Text.strip_padded hquotes hquotes (fun c hc ↦ hquote c (List.mem_of_head? hc))
      fun c hc ↦ hquote c (List.mem_of_getLast? hc)

/-- A list names the versions that it was written from, and any version if it has a star. -/
theorem names_listing_iff {entries : List Entry} (hne : entries ≠ []) {version : Int} :
    names (listing entries) version = true ↔ ∃ e ∈ entries, e.named.Admits version := by
  rw [names, splitOn_listing hne, List.any_map, List.any_eq_true]
  refine exists_congr fun e ↦ and_congr_right fun _ ↦ ?_
  rw [Function.comp_apply, name_text, Bool.or_eq_true, beq_iff_eq, beq_iff_eq]
  cases e.named with
  | any => exact iff_of_true (.inl rfl) trivial
  | tag weak named =>
    have hstar : (Text.writeInt named).toList ≠ ['*'] := fun h ↦
      Text.not_mem_writeInt (c := '*') (by decide) (by decide) named (h ▸ List.mem_cons_self)
    exact ⟨fun h ↦ (Text.writeInt_injective (h.resolve_left hstar)).symm, fun h ↦ .inr (h ▸ rfl)⟩

theorem listing_tag (version : Int) :
    listing [{ named := .tag false version }] = ofVersion version := by
  rw [listing, List.map_singleton, List.intercalate_singleton, Entry.text, List.nil_append,
    List.append_nil, Named.text, if_neg Bool.false_ne_true, List.nil_append, String.ofList_toList]

theorem names_ofVersion_iff {version other : Int} :
    names (ofVersion version) other = true ↔ other = version := by
  rw [← listing_tag, names_listing_iff (List.cons_ne_nil _ _)]
  simp only [List.mem_singleton, exists_eq_left]
  rfl

/-! ## The condition of a write -/

section Condition

variable {h : Headers} {tags : String}

theorem check_eq_ite (htags : h.text? "if-match" = .ok (some tags)) (version : Int) :
    check h version = if names tags version = true then .ok () else
      .error (.request (.preconditionFailed (Text.trim tags) (Text.writeInt version))) := by
  rw [check, htags]
  rfl

theorem check_eq_ok_iff (htags : h.text? "if-match" = .ok (some tags)) (version : Int) :
    check h version = .ok () ↔ names tags version = true := by
  rw [check_eq_ite htags]
  exact Outcome.ite_ok_iff

end Condition

end RowAccess.EntityTag
