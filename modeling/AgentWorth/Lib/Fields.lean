import AgentWorth.Lib.Lines
import AgentWorth.Lib.Strings

/-!
# Fields on labelled lines

A text of lines `Key: value`, where a field is looked up on the first line
that starts with its label.
-/

namespace AgentWorth.Js

/-- The lines of a text have no line break in them. -/
theorem oneLine_of_mem_splitOn {cs : List Char} :
    ∀ {line : List Char}, line ∈ cs.splitOn '\n' → OneLine line := by
  induction cs with
  | nil =>
      intro line hline
      rw [List.splitOn_nil, List.mem_singleton] at hline
      rw [hline]
      exact oneLine_nil
  | cons c cs ih =>
      intro line hline
      rw [List.splitOn_cons_eq_if_modifyHead] at hline
      split at hline
      · rcases List.mem_cons.1 hline with rfl | hrest
        · exact oneLine_nil
        · exact ih hrest
      · next hc =>
          cases hsplit : cs.splitOn '\n' with
          | nil => exact absurd hsplit (List.splitOn_ne_nil _ _)
          | cons first rest =>
              rw [hsplit, List.modifyHead_cons] at hline
              rw [hsplit] at ih
              rcases List.mem_cons.1 hline with rfl | hrest
              · exact oneLine_cons.2 ⟨by simpa using hc, ih List.mem_cons_self⟩
              · exact ih (List.mem_cons_of_mem _ hrest)

/-- What follows `p` in a text that starts with it. -/
def stripPrefix (p cs : List Char) : Option (List Char) :=
  if p.isPrefixOf cs then some (cs.drop p.length) else none

theorem stripPrefix_eq_some {p cs rest : List Char} :
    stripPrefix p cs = some rest ↔ cs = p ++ rest := by
  unfold stripPrefix
  constructor
  · intro h
    split at h
    · next hprefix =>
        obtain ⟨tail, rfl⟩ := List.isPrefixOf_iff_prefix.1 hprefix
        rw [List.drop_left] at h
        rw [Option.some.inj h]
    · cases h
  · rintro rfl
    rw [if_pos (List.isPrefixOf_iff_prefix.2 ⟨rest, rfl⟩), List.drop_left]

/-- The label of a field. -/
def label (key : String) : List Char := key.toList ++ ": ".toList

/-- What follows the label of a field on the first line that starts with it. -/
def field (lines : List (List Char)) (key : String) : Option (List Char) :=
  lines.findSome? (stripPrefix (label key))

def fieldLine (entry : String × List Char) : List Char := label entry.1 ++ entry.2

theorem field_append (as bs : List (List Char)) (key : String) :
    field (as ++ bs) key = (field as key).or (field bs key) :=
  List.findSome?_append

/-- A line of another field does not start with the label: the first colon ends
the name. -/
theorem stripPrefix_fieldLine {key : String} {entry : String × List Char}
    (hkey : ':' ∉ key.toList) (hentry : ':' ∉ entry.1.toList) :
    stripPrefix (label key) (fieldLine entry) =
      if key = entry.1 then some entry.2 else none := by
  split
  · next heq =>
      rw [stripPrefix_eq_some, heq]
      rfl
  · next hne =>
      cases hstrip : stripPrefix (label key) (fieldLine entry) with
      | none => rfl
      | some rest =>
          have hlines := stripPrefix_eq_some.1 hstrip
          have hcut := cut_append hentry (' ' :: entry.2)
          have hcut' := cut_append hkey (' ' :: rest)
          have hsame : entry.1.toList ++ ':' :: ' ' :: entry.2 =
              key.toList ++ ':' :: ' ' :: rest := by
            simpa [fieldLine, label] using hlines
          rw [hsame, hcut', Option.some.injEq, Prod.mk.injEq] at hcut
          exact absurd (String.toList_injective hcut.1) hne

/-- **Among lines of fields alone a field is the first of its name.** -/
theorem field_map_fieldLine {key : String} (hkey : ':' ∉ key.toList)
    {entries : List (String × List Char)} (h : ∀ e ∈ entries, ':' ∉ e.1.toList) :
    field (entries.map fieldLine) key = entries.lookup key := by
  unfold field
  induction entries with
  | nil => rfl
  | cons e es ih =>
      have htail := ih fun e' he' => h e' (List.mem_cons_of_mem e he')
      rw [List.map_cons, List.findSome?_cons,
        stripPrefix_fieldLine hkey (h e List.mem_cons_self), htail]
      obtain ⟨name, v⟩ := e
      by_cases heq : key = name
      · subst heq
        rw [if_pos rfl, List.lookup_cons_self]
      · have hb : (key == name) = false := by simpa using heq
        rw [if_neg heq, List.lookup_cons, hb]

/-- A field is read from one of the lines. -/
theorem mem_of_field {lines : List (List Char)} {key : String} {v : List Char}
    (h : field lines key = some v) : label key ++ v ∈ lines := by
  obtain ⟨line, hline, hstrip⟩ := List.exists_of_findSome?_eq_some h
  rwa [← stripPrefix_eq_some.1 hstrip]

end AgentWorth.Js
