import PromptAssembly.Proofs.Files.Making

/-!
# Trees of files

In a tree every entry lies in a directory, so that where nothing is, nothing lies below. A directory
that had to be made stands where nothing was (`IsTree.exists_of_made`), and a path that goes down
from there leads to no file and through no link (`IsTree.absent_of_leads`).
-/
namespace PromptAssembly.Files

/-- The key of the directory in which the entry with this key lies. -/
def above (key : String) : String :=
  String.ofList ((key.toList.reverse.dropWhile (· ≠ '/')).drop 1).reverse

/-- Every entry lies in a directory that is there. -/
def IsTree (f : Files) : Prop := ∀ e ∈ f.entries.entries,
  above e.1 = "" ∨ (f.entries.get? (above e.1)).any Entry.isDirectory = true

instance (f : Files) : Decidable f.IsTree :=
  inferInstanceAs (Decidable (∀ e ∈ f.entries.entries, _))

variable {f g : Files} {links : Nat} {names parts place : List String} {name : String}

theorem above_location (h : '/' ∉ name.toList) :
    above (location (names ++ [name])) = location names := by
  have hname : ∀ c ∈ name.toList.reverse, decide (c ≠ '/') = true := by
    intro c hc
    simpa using fun hs : c = '/' => h (hs ▸ List.mem_reverse.1 hc)
  have hreverse : (location (names ++ [name])).toList.reverse =
      name.toList.reverse ++ '/' :: (location names).toList.reverse := by
    simp [location_append]
  rw [above, hreverse, List.dropWhile_append_of_pos hname]
  simp

namespace IsTree

theorem hasDirectory_of_isSome (tree : f.IsTree) (h : (f.entryAt? (names ++ [name])).isSome = true)
    (hname : '/' ∉ name.toList) : f.hasDirectory names = true := by
  obtain ⟨e, he⟩ := Option.isSome_iff_exists.1 h
  rw [entryAt?, if_neg (by simp)] at he
  rcases tree _ (Dict.mem_of_get? he) with root | dir
  · rw [above_location hname] at root
    rw [eq_nil_of_location root]
    rfl
  · rw [above_location hname] at dir
    cases names with
    | nil => rfl
    | cons n ns => exact dir

theorem absent_append (tree : f.IsTree) (absent : f.entryAt? names = none)
    (hname : '/' ∉ name.toList) : f.entryAt? (names ++ [name]) = none := by
  rw [← Option.not_isSome_iff_eq_none]
  intro there
  have dir := tree.hasDirectory_of_isSome there hname
  simp [hasDirectory_iff, absent] at dir

/-- Down from where nothing was, a path leads to where nothing was, whatever directories have been
made since. -/
theorem absent_of_leads (tree : f.IsTree) (grows : Grows f g) (h : Leads g links names parts place)
    (onward : ".." ∉ parts) (slashless : ∀ part ∈ parts, '/' ∉ part.toList)
    (absent : f.entryAt? names = none) : f.entryAt? place = none := by
  induction h with
  | here => exact absent
  | stay _ _ _ ih =>
    rw [List.mem_cons, not_or] at onward
    exact ih onward.2 (List.forall_mem_cons.1 slashless).2 absent
  | up => exact absurd List.mem_cons_self onward
  | down _ _ _ _ _ _ _ ih =>
    rw [List.mem_cons, not_or] at onward
    obtain ⟨hpart, slashless⟩ := List.forall_mem_cons.1 slashless
    exact ih onward.2 slashless (tree.absent_append absent hpart)
  | @link _ names _ _ part _ _ _ _ _ there =>
    obtain ⟨hpart, -⟩ := List.forall_mem_cons.1 slashless
    have absent' := tree.absent_append absent hpart
    rcases grows.entryAt? (names ++ [part]) with same | ⟨-, made⟩
    · simp [same, absent'] at there
    · simp [made] at there

theorem absent_of_parent (tree : f.IsTree) (grows : Grows f g) {p q : Path} {above : List String}
    (up : p.parent? = some q) (hne : q ≠ "") (onward : ".." ∉ p.parts)
    (hq : g.resolve q = .ok above) (absent : f.entryAt? above = none)
    (hp : g.resolve p = .ok place) : f.entryAt? place = none := by
  obtain ⟨habs, name, hnames⟩ := Path.names_of_parent up hne
  obtain ⟨start, hstart, m, -, hleads⟩ := resolve_eq_ok_iff.1 hp
  obtain ⟨start', hstart', n, -, hleads'⟩ := resolve_eq_ok_iff.1 hq
  obtain rfl : start = start' := by
    rw [(start_eq_ok_iff.1 hstart).2.2.2, (start_eq_ok_iff.1 hstart').2.2.2, habs]
  have down : Leads g m start p.names place := hleads.filter
  rw [hnames] at down
  obtain ⟨_, _, middle, -, front, back⟩ := down.exists_of_append
  obtain rfl := front.unique hleads'.filter
  have hname : name ∈ p.names := by simp [hnames]
  refine tree.absent_of_leads grows back (fun dots => ?_) (fun part hpart => ?_) absent
  · obtain rfl := List.mem_singleton.1 dots
    exact onward (List.mem_filter.1 hname).1
  · obtain rfl := List.mem_singleton.1 hpart
    exact (Path.proper_of_mem_names hname).1

/-- A directory that had to be made stands where nothing was. -/
theorem exists_of_made (tree : f.IsTree) {fuel : Nat} {p : Path} (hne : p ≠ "")
    (onward : ".." ∉ p.parts) (missing : f.isDirectory p = false)
    (made : f.makeDirectories fuel p = (.ok (), g)) :
    ∃ place, g.resolve p = .ok place ∧ f.entryAt? place = none := by
  fun_induction Files.makeDirectories fuel f p generalizing g with
  | case1 _ _ empty => exact absurd (String.isEmpty_iff.1 empty) hne
  | case2 _ _ _ k hk =>
    obtain rfl : k = g := (Prod.mk.inj made).2
    obtain ⟨place, -, absent, hplace⟩ := exists_of_makeDirectory hk
    exact ⟨place, hplace, absent⟩
  | case3 => cases made
  | case4 p _ _ fuel q up k above k' hk ih =>
    obtain rfl : k' = g := (Prod.mk.inj made).2
    obtain ⟨place, -, absent, hplace⟩ := exists_of_makeDirectory hk
    have grows : Grows f k := by simpa [above] using (madeFor_makeDirectories fuel f q).toGrows
    exact ⟨place, hplace, (grows.entryAt? place).elim (fun same => same ▸ absent) And.left⟩
  | case5 p _ check _ fuel q up k above e failed =>
    rename_i ih
    obtain ⟨there, rfl⟩ : k.isDirectory p = true ∧ k = g := by simpa [check] using made
    have grows : Grows f k := by simpa [above] using (madeFor_makeDirectories fuel f q).toGrows
    -- something has been made for the path above, or else nothing would have changed for this one
    have changed (same : f.makeDirectories fuel q = (.ok (), f)) : False := by
      obtain rfl := (Prod.mk.inj (above.symm.trans same)).2
      simp [missing] at there
    have hq : q ≠ "" := by
      rintro rfl
      exact changed (makeDirectories_empty fuel)
    have missing' : f.isDirectory q = false := by
      rw [← Bool.not_eq_true]
      exact fun dir => changed (makeDirectories_of_isDirectory fuel dir)
    obtain ⟨-, name, hnames⟩ := Path.names_of_parent up hq
    have onward' : ".." ∉ q.parts := fun dots => by
      have hmem : ".." ∈ p.names := by
        rw [hnames, List.mem_append]
        exact .inl (List.mem_filter.2 ⟨dots, by decide⟩)
      exact onward (List.mem_filter.1 hmem).1
    obtain ⟨place', hplace', absent⟩ := ih hq onward' missing' above
    obtain ⟨place, hplace, -⟩ := isDirectory_iff_exists.1 there
    exact ⟨place, hplace, tree.absent_of_parent grows up hq onward hplace' absent hplace⟩
  | case6 => cases made
  | case7 fuel p _ check e other =>
    obtain ⟨there, -⟩ : f.isDirectory p = true ∧ f = g := by simpa [check] using made
    simp [missing] at there

end IsTree
end PromptAssembly.Files
