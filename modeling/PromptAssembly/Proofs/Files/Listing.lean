import PromptAssembly.Proofs.Files.Trees

/-!
# Listing a directory

The entries that are listed of a directory are those that the directory's names lead to with one
name more (`mem_list_iff`).
-/
namespace PromptAssembly.Files

variable {f g : Files} {names place : List String} {name : String} {p : Path} {e : Entry}

theorem exists_dropPrefix?_iff {key start : String} :
    (∃ rest, key.dropPrefix? start = some rest ∧ rest.copy = name) ↔ key = start ++ name := by
  constructor
  · rintro ⟨rest, hrest, rfl⟩
    exact String.eq_append_of_dropPrefix?_string_eq_some hrest
  · rintro rfl
    cases hdrop : (start ++ name).dropPrefix? start with
    | none =>
      rw [String.dropPrefix?_eq_dropPrefix?_toSlice, String.Slice.dropPrefix?_eq_none_iff,
        String.startsWith_toSlice] at hdrop
      simp at hdrop
    | some rest =>
      have happend := String.eq_append_of_dropPrefix?_string_eq_some hdrop
      exact ⟨rest, rfl, (String.append_right_inj start).1 happend.symm⟩

theorem mem_children_iff : (name, e) ∈ f.children names ↔
    '/' ∉ name.toList ∧ f.entryAt? (names ++ [name]) = some e := by
  have hentry : f.entryAt? (names ++ [name]) = some e ↔
      (location names ++ "/" ++ name, e) ∈ f.entries.entries := by
    rw [Dict.mem_entries_iff, entryAt?, if_neg (by simp), location_append]
  rw [hentry, children, List.mem_filterMap]
  constructor
  · rintro ⟨⟨key, e'⟩, hmem, h⟩
    cases hdrop : key.dropPrefix? (location names ++ "/") with
    | none => simp [hdrop] at h
    | some rest =>
      have hkey := exists_dropPrefix?_iff.1 ⟨rest, hdrop, rfl⟩
      simp only [hdrop] at h
      split at h
      · cases h
      · next hslash =>
        obtain ⟨rfl, rfl⟩ : rest.copy = name ∧ e' = e := by simpa using h
        exact ⟨by simpa using hslash, hkey ▸ hmem⟩
  · rintro ⟨hslash, hmem⟩
    obtain ⟨rest, hrest, rfl⟩ := exists_dropPrefix?_iff.2
      (show location names ++ "/" ++ name = location names ++ "/" ++ name from rfl)
    exact ⟨_, hmem, by simp [hrest, hslash]⟩

theorem mem_list_iff : (name, e) ∈ f.list p ↔ ∃ names, f.resolve p = .ok names ∧
    f.hasDirectory names = true ∧ '/' ∉ name.toList ∧ f.entryAt? (names ++ [name]) = some e := by
  unfold Files.list
  cases hp : f.resolve p with
  | error => simp
  | ok names =>
    by_cases dir : f.hasDirectory names
    · simp [dir, mem_children_iff]
    · simp [dir]

theorem list_eq_nil (h : f.isDirectory p = false) : f.list p = [] := by
  unfold Files.list
  cases hp : f.resolve p with
  | error => rfl
  | ok names =>
    cases dir : f.hasDirectory names with
    | false => simp [dir]
    | true => simp [isDirectory_iff_exists.2 ⟨names, hp, dir⟩] at h

theorem append_lt_append_left (start : String) {a b : String} (h : a < b) :
    start ++ a < start ++ b := by
  show (start ++ a).toList < (start ++ b).toList
  rw [String.toList_append, String.toList_append]
  exact List.append_left_lt h

theorem lt_of_append_lt_append {start a b : String} (h : start ++ a < start ++ b) : a < b := by
  rcases Std.lt_trichotomy a b with less | rfl | greater
  · exact less
  · exact absurd h (String.lt_irrefl _)
  · exact absurd (append_lt_append_left start greater) (String.lt_asymm h)

/-- What an entry is to the directory that these names lead to, if it lies in it. -/
def childAt (names : List String) (entry : String × Entry) : Option (String × Entry) :=
  match entry.1.dropPrefix? (location names ++ "/") with
  | some name => if name.copy.toList.contains '/' then none else some (name.copy, entry.2)
  | none => none

theorem children_eq (f : Files) (names : List String) :
    f.children names = f.entries.entries.filterMap (childAt names) := rfl

theorem key_of_childAt {entry child : String × Entry} (h : childAt names entry = some child) :
    entry.1 = location names ++ "/" ++ child.1 := by
  unfold childAt at h
  split at h
  · next name hdrop =>
    split at h
    · cases h
    · obtain rfl := Option.some.inj h
      exact exists_dropPrefix?_iff.1 ⟨name, hdrop, rfl⟩
  · cases h

/-- Entries are listed by name, since their keys begin alike. -/
theorem sorted_children (f : Files) (names : List String) :
    (f.children names).Pairwise fun a b => a.1 < b.1 := by
  rw [children_eq]
  refine List.pairwise_filterMap.2 (f.entries.sorted.imp fun {a b} less c hc d hd => ?_)
  rw [key_of_childAt hc, key_of_childAt hd] at less
  exact lt_of_append_lt_append less

theorem sorted_list (f : Files) (p : Path) : (f.list p).Pairwise fun a b => a.1 < b.1 := by
  unfold Files.list
  split
  · split
    · exact sorted_children f _
    · exact .nil
  · exact .nil

end PromptAssembly.Files
