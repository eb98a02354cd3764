import PromptAssembly.Files
import PromptAssembly.Proofs.Files.Paths

/-!
# Following paths

Where a path leads, as a relation (`Leads`) that says what each part of the path asks of the files.
What is made at one place leaves all other places as they are, and opens a path only if it leads to
the new place (`Leads.of_put`).
-/
namespace PromptAssembly

section
variable {ε α β : Type}

@[simp] theorem ok_bind (a : α) (k : α → Except ε β) : (.ok a >>= k) = k a := rfl

@[simp] theorem error_bind (e : ε) (k : α → Except ε β) : (.error e >>= k) = .error e := rfl

@[simp] theorem pure_eq_ok (a : α) : (pure a : Except ε α) = .ok a := rfl

@[simp] theorem throw_eq_error (e : ε) : (throw e : Except ε α) = .error e := rfl

end

namespace Files

/-- Where following goes on from a link in the directory `names`. -/
def base (names : List String) (target : Path) : List String :=
  if target.isAbsolute then [] else names

/-- From the directory `names`, the parts of a path lead to `place` by way of so many links. -/
inductive Leads (f : Files) : (links : Nat) → (names parts place : List String) → Prop
  | here (names : List String) : Leads f 0 names [] names
  | stay {links : Nat} {names parts place : List String} {part : String}
      (dir : f.hasDirectory names = true) (dot : part = "" ∨ part = ".")
      (rest : Leads f links names parts place) : Leads f links names (part :: parts) place
  | up {links : Nat} {names parts place : List String} (dir : f.hasDirectory names = true)
      (rest : Leads f links names.dropLast parts place) : Leads f links names (".." :: parts) place
  | down {links : Nat} {names parts place : List String} {part : String} {e : Entry}
      (dir : f.hasDirectory names = true) (proper : ¬ (part = "" ∨ part = ".")) (onward : part ≠ "..")
      (short : part.utf8ByteSize ≤ 255) (there : f.entryAt? (names ++ [part]) = some e)
      (real : ∀ target, e ≠ .link target) (rest : Leads f links (names ++ [part]) parts place) :
      Leads f links names (part :: parts) place
  | link {links : Nat} {names parts place : List String} {part : String} {target : Path}
      (dir : f.hasDirectory names = true) (proper : ¬ (part = "" ∨ part = ".")) (onward : part ≠ "..")
      (short : part.utf8ByteSize ≤ 255)
      (there : f.entryAt? (names ++ [part]) = some (.link target))
      (rest : Leads f links (base names target) (target.parts ++ parts) place) :
      Leads f (links + 1) names (part :: parts) place

variable {f g : Files} {links : Nat} {names parts place : List String} {p : Path}

section
variable {new : Bool} {part : String}

@[simp] theorem walk_nil : f.walk new links names [] = .ok names := rfl

theorem walk_stay (dir : f.hasDirectory names = true) (dot : part = "" ∨ part = ".") :
    f.walk new links names (part :: parts) = f.walk new links names parts := by
  rw [walk, walkWith, dir, if_pos dot]
  rfl

theorem walk_up (dir : f.hasDirectory names = true) :
    f.walk new links names (".." :: parts) = f.walk new links names.dropLast parts := by
  rw [walk, walkWith, dir]
  rfl

theorem walk_proper (dir : f.hasDirectory names = true) (proper : ¬ (part = "" ∨ part = "."))
    (onward : part ≠ "..") (short : part.utf8ByteSize ≤ 255) :
    f.walk new links names (part :: parts) =
      if new && !parts.isEmpty && parts.all String.isEmpty then .error .isDirectory
      else match f.entryAt? (names ++ [part]) with
        | none => if new && parts.isEmpty then .ok (names ++ [part]) else .error .notFound
        | some (.link target) => f.follow new links names target parts
        | some _ => f.walk new links (names ++ [part]) parts := by
  rw [walk, walkWith, dir, if_neg proper, if_neg onward, if_neg (Nat.not_lt.2 short)]
  rfl

/-- What becomes of the first part of a path that is followed with success. -/
inductive FirstStep (f : Files) (new : Bool) (links : Nat) (names : List String) (part : String)
    (parts place : List String) : Prop
  | stay (dot : part = "" ∨ part = ".") (rest : f.walk new links names parts = .ok place)
  | up (dots : part = "..") (rest : f.walk new links names.dropLast parts = .ok place)
  | down {e : Entry} (proper : ¬ (part = "" ∨ part = ".")) (onward : part ≠ "..")
      (short : part.utf8ByteSize ≤ 255) (there : f.entryAt? (names ++ [part]) = some e)
      (real : ∀ target, e ≠ .link target) (rest : f.walk new links (names ++ [part]) parts = .ok place)
  | link {target : Path} {more : Nat} (proper : ¬ (part = "" ∨ part = ".")) (onward : part ≠ "..")
      (short : part.utf8ByteSize ≤ 255) (there : f.entryAt? (names ++ [part]) = some (.link target))
      (fewer : links = more + 1)
      (rest : f.walk new more (base names target) (target.parts ++ parts) = .ok place)
  | made (proper : ¬ (part = "" ∨ part = ".")) (onward : part ≠ "..")
      (short : part.utf8ByteSize ≤ 255) (isNew : new = true)
      (absent : f.entryAt? (names ++ [part]) = none) (last : parts = [])
      (here : place = names ++ [part])

theorem firstStep_of_walk (h : f.walk new links names (part :: parts) = .ok place) :
    f.hasDirectory names = true ∧ FirstStep f new links names part parts place := by
  cases dir : f.hasDirectory names with
  | false => simp [walk, walkWith, dir] at h
  | true =>
    refine ⟨rfl, ?_⟩
    by_cases dot : part = "" ∨ part = "."
    · exact .stay dot (walk_stay dir dot ▸ h)
    by_cases up : part = ".."
    · subst up
      exact .up rfl (walk_up dir ▸ h)
    by_cases long : 255 < part.utf8ByteSize
    · simp [walk, walkWith, dir, dot, up, long] at h
    have short : part.utf8ByteSize ≤ 255 := by omega
    rw [walk_proper dir dot up short] at h
    split at h
    · cases h
    cases there : f.entryAt? (names ++ [part]) with
    | none =>
      rw [there] at h
      dsimp only at h
      split at h
      · next fresh =>
        obtain ⟨isNew, last⟩ := Bool.and_eq_true_iff.1 fresh
        exact .made dot up short isNew there (List.isEmpty_iff.1 last) (Except.ok.inj h).symm
      · cases h
    | some e =>
      rw [there] at h
      cases e with
      | directory => exact .down dot up short there nofun h
      | file content => exact .down dot up short there nofun h
      | link target =>
        cases links with
        | zero => cases h
        | succ more => exact .link dot up short there rfl h

end

theorem hasDirectory_iff : f.hasDirectory names = true ↔ f.entryAt? names = some .directory := by
  unfold hasDirectory
  cases f.entryAt? names with
  | none => simp
  | some e => cases e <;> simp [Entry.isDirectory]

/-- Nothing has gone or become something else, though files may hold something else. -/
def Keeps (f g : Files) : Prop := ∀ names e, f.entryAt? names = some e →
  ∃ e', g.entryAt? names = some e' ∧ (e' = e ∨ e.isFile = true ∧ e'.isFile = true)

namespace Keeps

theorem refl (f : Files) : Keeps f f := fun _ e he => ⟨e, he, .inl rfl⟩

theorem of_eq {e : Entry} (h : Keeps f g) (he : f.entryAt? names = some e)
    (other : e.isFile = false) : g.entryAt? names = some e := by
  obtain ⟨e', he', rfl | ⟨file, -⟩⟩ := h names e he
  · exact he'
  · simp [file] at other

theorem hasDirectory (h : Keeps f g) (dir : f.hasDirectory names = true) :
    g.hasDirectory names = true :=
  hasDirectory_iff.2 (h.of_eq (hasDirectory_iff.1 dir) rfl)

theorem exists_real {e : Entry} (h : Keeps f g) (he : f.entryAt? names = some e)
    (real : ∀ target, e ≠ .link target) :
    ∃ e', g.entryAt? names = some e' ∧ ∀ target, e' ≠ .link target := by
  obtain ⟨e', he', rfl | ⟨-, file⟩⟩ := h names e he
  · exact ⟨e', he', real⟩
  · exact ⟨e', he', by rintro target rfl; cases file⟩

end Keeps

/-- A path that can be followed leads to the same place where all is kept and the file has been made
that was new. -/
theorem exists_leads_of_walk {new : Bool} (keeps : Keeps f g)
    (made : new = true → f.entryAt? place = none → ∃ content, g.entryAt? place = some (.file content))
    (h : f.walk new links names parts = .ok place) : ∃ n ≤ links, Leads g n names parts place := by
  -- a link gives a longer path, but one link less to go through
  induction links using Nat.strongRecOn generalizing names parts with
  | _ links outer =>
    induction parts generalizing names with
    | nil =>
      obtain rfl := Except.ok.inj h
      exact ⟨0, Nat.zero_le _, .here _⟩
    | cons part parts ih =>
      obtain ⟨dir, first⟩ := firstStep_of_walk h
      have dir := keeps.hasDirectory dir
      cases first with
      | stay dot rest =>
        obtain ⟨n, hn, rest⟩ := ih rest
        exact ⟨n, hn, .stay dir dot rest⟩
      | up dots rest =>
        subst dots
        obtain ⟨n, hn, rest⟩ := ih rest
        exact ⟨n, hn, .up dir rest⟩
      | down proper onward short there real rest =>
        obtain ⟨n, hn, rest⟩ := ih rest
        obtain ⟨e', there', real'⟩ := keeps.exists_real there real
        exact ⟨n, hn, .down dir proper onward short there' real' rest⟩
      | @link target more proper onward short there fewer rest =>
        subst fewer
        obtain ⟨n, hn, rest⟩ := outer more (Nat.lt_succ_self more) rest
        exact ⟨n + 1, Nat.succ_le_succ hn,
          .link dir proper onward short (keeps.of_eq there rfl) rest⟩
      | made proper onward short isNew absent last here =>
        subst last here
        obtain ⟨content, file⟩ := made isNew absent
        exact ⟨0, Nat.zero_le _, .down dir proper onward short file nofun (.here _)⟩

namespace Leads

theorem walk (h : Leads f links names parts place) {n : Nat} (enough : links ≤ n) :
    f.walk false n names parts = .ok place := by
  induction h generalizing n with
  | here names => rfl
  | stay dir dot _ ih => rw [walk_stay dir dot, ih enough]
  | up dir _ ih => rw [walk_up dir, ih enough]
  | @down _ _ _ _ _ e dir proper onward short there real _ ih =>
    rw [walk_proper dir proper onward short, there]
    cases e with
    | link target => exact absurd rfl (real target)
    | _ => exact ih enough
  | link dir proper onward short there _ ih =>
    obtain ⟨n, rfl⟩ := Nat.exists_eq_add_of_lt enough
    rw [walk_proper dir proper onward short, there]
    exact ih (by omega)

end Leads

theorem walk_eq_ok_iff :
    f.walk false links names parts = .ok place ↔ ∃ n ≤ links, Leads f n names parts place :=
  ⟨exists_leads_of_walk (.refl f) nofun, fun ⟨_, enough, h⟩ => h.walk enough⟩

namespace Leads

theorem unique {n : Nat} {other : List String} (h : Leads f links names parts place)
    (h' : Leads f n names parts other) : place = other :=
  Except.ok.inj ((h.walk (Nat.le_max_left links n)).symm.trans (h'.walk (Nat.le_max_right links n)))

theorem append {n : Nat} {middle more : List String} (h : Leads f links names parts middle)
    (h' : Leads f n middle more place) : Leads f (links + n) names (parts ++ more) place := by
  induction h with
  | here names => rwa [Nat.zero_add]
  | stay dir dot _ ih => exact .stay dir dot (ih h')
  | up dir _ ih => exact .up dir (ih h')
  | down dir proper onward short there real _ ih =>
    exact .down dir proper onward short there real (ih h')
  | link dir proper onward short there _ ih =>
    have rest := ih h'
    rw [List.append_assoc] at rest
    rw [Nat.add_right_comm]
    exact .link dir proper onward short there rest

theorem exists_of_append {more : List String} (h : Leads f links names (parts ++ more) place) :
    ∃ m n middle, m + n = links ∧ Leads f m names parts middle ∧ Leads f n middle more place := by
  generalize hall : parts ++ more = all at h
  induction h generalizing parts with
  | here names =>
    obtain ⟨rfl, rfl⟩ := List.append_eq_nil_iff.1 hall
    exact ⟨0, 0, names, rfl, .here _, .here _⟩
  | @stay _ _ _ _ _ dir dot rest ih =>
    rcases List.append_eq_cons_iff.1 hall with ⟨rfl, rfl⟩ | ⟨ps, rfl, rfl⟩
    · exact ⟨0, _, _, Nat.zero_add _, .here _, .stay dir dot rest⟩
    · obtain ⟨m, n, middle, sum, front, back⟩ := ih rfl
      exact ⟨m, n, middle, sum, .stay dir dot front, back⟩
  | @up _ _ _ _ dir rest ih =>
    rcases List.append_eq_cons_iff.1 hall with ⟨rfl, rfl⟩ | ⟨ps, rfl, rfl⟩
    · exact ⟨0, _, _, Nat.zero_add _, .here _, .up dir rest⟩
    · obtain ⟨m, n, middle, sum, front, back⟩ := ih rfl
      exact ⟨m, n, middle, sum, .up dir front, back⟩
  | @down _ _ _ _ _ _ dir proper onward short there real rest ih =>
    rcases List.append_eq_cons_iff.1 hall with ⟨rfl, rfl⟩ | ⟨ps, rfl, rfl⟩
    · exact ⟨0, _, _, Nat.zero_add _, .here _, .down dir proper onward short there real rest⟩
    · obtain ⟨m, n, middle, sum, front, back⟩ := ih rfl
      exact ⟨m, n, middle, sum, .down dir proper onward short there real front, back⟩
  | @link _ _ _ _ _ target dir proper onward short there rest ih =>
    rcases List.append_eq_cons_iff.1 hall with ⟨rfl, rfl⟩ | ⟨ps, rfl, rfl⟩
    · exact ⟨0, _, _, Nat.zero_add _, .here _, .link dir proper onward short there rest⟩
    · obtain ⟨m, n, middle, sum, front, back⟩ := ih (List.append_assoc target.parts ps more)
      exact ⟨m + 1, n, middle, by omega, .link dir proper onward short there front, back⟩

theorem hasDirectory (h : Leads f links names parts place) (hne : parts ≠ []) :
    f.hasDirectory names = true := by
  cases h with
  | here => exact absurd rfl hne
  | stay dir _ _ => exact dir
  | up dir _ => exact dir
  | down dir => exact dir
  | link dir => exact dir

theorem filter (h : Leads f links names parts place) :
    Leads f links names (parts.filter fun part => part ≠ "" && part ≠ ".") place := by
  induction parts generalizing links names with
  | nil => exact h
  | cons part parts ih =>
    obtain ⟨m, n, middle, rfl, front, back⟩ :=
      exists_of_append (show Leads f links names ([part] ++ parts) place from h)
    by_cases blank : part = "" ∨ part = "."
    · rw [List.filter_cons_of_neg (by rcases blank with rfl | rfl <;> simp)]
      cases front with
      | stay _ _ rest =>
        cases rest
        rw [Nat.zero_add]
        exact ih back
      | up => simp at blank
      | down _ proper => exact absurd blank proper
      | link _ proper => exact absurd blank proper
    · rw [List.filter_cons_of_pos (by simpa [not_or] using blank)]
      exact front.append (ih back)

theorem mono (h : Leads f links names parts place) (keeps : Keeps f g) :
    Leads g links names parts place := by
  induction h with
  | here names => exact .here names
  | stay dir dot _ ih => exact .stay (keeps.hasDirectory dir) dot ih
  | up dir _ ih => exact .up (keeps.hasDirectory dir) ih
  | down dir proper onward short there real _ ih =>
    obtain ⟨e, there', real'⟩ := keeps.exists_real there real
    exact .down (keeps.hasDirectory dir) proper onward short there' real' ih
  | link dir proper onward short there _ ih =>
    exact .link (keeps.hasDirectory dir) proper onward short (keeps.of_eq there rfl) ih

end Leads

theorem start_eq_ok_iff {start : List String} : f.start p = .ok start ↔
    '\x00' ∉ p.toList ∧ p ≠ "" ∧ p.utf8ByteSize < 4096 ∧
      start = if p.isAbsolute then [] else f.working := by
  unfold Files.start
  split
  · next h => simp_all
  · split
    · next h => simp_all
    · split
      · next h => simp; omega
      · next h => simp_all; grind

/-- A shorter path that starts at the same place can be followed as well. -/
theorem start_of_start {q : Path} {start : List String} (h : f.start p = .ok start) (hne : q ≠ "")
    (chars : q.toList ⊆ p.toList) (size : q.utf8ByteSize ≤ p.utf8ByteSize)
    (habs : q.isAbsolute = p.isAbsolute) : f.start q = .ok start := by
  rw [start_eq_ok_iff] at h ⊢
  exact ⟨fun hm => h.1 (chars hm), hne, by omega, habs ▸ h.2.2.2⟩

theorem resolve_eq_ok_iff : f.resolve p = .ok place ↔
    ∃ start, f.start p = .ok start ∧ ∃ n ≤ maxLinks, Leads f n start p.parts place := by
  unfold resolve
  cases f.start p with
  | error e => simp
  | ok start => simp [walk_eq_ok_iff]

theorem resolve_of_leads {start : List String} (hstart : f.start p = .ok start)
    (enough : links ≤ maxLinks) (h : Leads f links start p.parts place) : f.resolve p = .ok place :=
  resolve_eq_ok_iff.2 ⟨start, hstart, links, enough, h⟩

theorem ne_empty_of_resolve (h : f.resolve p = .ok place) : p ≠ "" := by
  obtain ⟨start, hstart, -⟩ := resolve_eq_ok_iff.1 h
  exact (start_eq_ok_iff.1 hstart).2.1

theorem find_eq_ok_iff {e : Entry} : f.find p = .ok e ↔
    ∃ place, f.resolve p = .ok place ∧ f.entryAt? place = some e := by
  unfold find
  cases f.resolve p with
  | error _ => simp
  | ok place => cases h : f.entryAt? place <;> simp [h]

theorem contains_iff : f.contains p = true ↔ ∃ e, f.find p = .ok e := by
  unfold contains
  cases f.find p <;> simp [Except.toOption]

theorem isFile_iff : f.isFile p = true ↔ ∃ content, f.find p = .ok (.file content) := by
  unfold isFile
  cases f.find p with
  | error _ => simp [Except.toOption]
  | ok e => cases e <;> simp [Except.toOption, Entry.isFile]

theorem isDirectory_iff : f.isDirectory p = true ↔ f.find p = .ok .directory := by
  unfold isDirectory
  cases f.find p with
  | error _ => simp [Except.toOption]
  | ok e => cases e <;> simp [Except.toOption, Entry.isDirectory]

theorem isDirectory_iff_exists : f.isDirectory p = true ↔
    ∃ place, f.resolve p = .ok place ∧ f.hasDirectory place = true := by
  rw [isDirectory_iff, find_eq_ok_iff]
  exact exists_congr fun place => and_congr_right fun _ => hasDirectory_iff.symm

theorem start_of_join {dir rest : Path} {start : List String} (hdir : dir ≠ "")
    (hrel : rest.isAbsolute = false) (h : f.start (dir.join rest) = .ok start) :
    f.start dir = .ok start := by
  obtain ⟨d, hjoin, hd⟩ := Path.exists_join hdir hrel
  rw [hjoin] at h
  refine start_of_start h hdir ?_ ?_ ?_
  · rcases hd with rfl | rfl <;> simp
  · rcases hd with rfl | rfl <;> simp only [String.utf8ByteSize_append] <;> omega
  · rcases hd with rfl | rfl
    · rw [String.append_assoc, Path.isAbsolute_append hdir]
    · rw [Path.isAbsolute_append hdir]

/-- What is joined to a directory is looked for from there on. -/
theorem exists_of_leads_join {dir rest : Path} {start : List String} (hdir : dir ≠ "")
    (hrel : rest.isAbsolute = false) (h : Leads f links start (dir.join rest).parts place) :
    ∃ m n names, m + n = links ∧ Leads f m start dir.parts names ∧ Leads f n names rest.parts place := by
  obtain ⟨d, hjoin, hd⟩ := Path.exists_join hdir hrel
  rw [hjoin, Path.parts_append_slash] at h
  obtain ⟨m, n, names, sum, front, back⟩ := h.exists_of_append
  refine ⟨m, n, names, sum, ?_, back⟩
  rcases hd with rfl | rfl
  · exact front
  · have hparts : (d ++ "/").parts = d.parts ++ [""] := by
      rw [← String.append_empty (s := d ++ "/"), Path.parts_append_slash, Path.parts_empty]
    rw [hparts]
    exact front.append (.stay (back.hasDirectory (Path.parts_ne_nil rest)) (.inl rfl) (.here _))

theorem exists_of_resolve_join {dir rest : Path} (hdir : dir ≠ "") (hrel : rest.isAbsolute = false)
    (h : f.resolve (dir.join rest) = .ok place) : ∃ names n, f.resolve dir = .ok names ∧
      f.hasDirectory names = true ∧ Leads f n names rest.parts place := by
  obtain ⟨start, hstart, links, enough, hleads⟩ := resolve_eq_ok_iff.1 h
  obtain ⟨m, n, names, sum, front, back⟩ := exists_of_leads_join hdir hrel hleads
  exact ⟨names, n, resolve_of_leads (start_of_join hdir hrel hstart) (by omega) front,
    back.hasDirectory (Path.parts_ne_nil rest), back⟩

theorem entryAt?_put (e : Entry) (ns : List String) : (f.put names e).entryAt? ns =
    if ns = [] then some .directory else if location ns = location names then some e
      else f.entryAt? ns := by
  cases ns with
  | nil => rfl
  | cons n ns => simp [entryAt?, put]

theorem location_append (names : List String) (name : String) :
    location (names ++ [name]) = location names ++ "/" ++ name := by
  simp [location, String.join, String.append_assoc]

theorem eq_nil_of_location (h : location names = "") : names = [] := by
  rcases List.eq_nil_or_concat names with rfl | ⟨ns, n, rfl⟩
  · rfl
  · rw [List.concat_eq_append, location_append] at h
    simpa using congrArg String.toList h

theorem entryAt?_congr {ns : List String} (h : location ns = location names) :
    f.entryAt? ns = f.entryAt? names := by
  have hnil : ns = [] ↔ names = [] := by
    constructor
    · rintro rfl
      exact eq_nil_of_location h.symm
    · rintro rfl
      exact eq_nil_of_location h
  simp [entryAt?, hnil, h]

/-- A file can be put there: there is nothing, or a file to be replaced. -/
def Free (f : Files) (names : List String) : Prop := ∀ e, f.entryAt? names = some e → e.isFile = true

theorem Free.ne_nil (free : f.Free names) : names ≠ [] := by
  rintro rfl
  cases free .directory rfl

theorem Free.of_none (absent : f.entryAt? names = none) : f.Free names := by
  intro e he
  simp [absent] at he

variable {content : ByteArray}

theorem keeps_put (free : f.Free names) : Keeps f (f.put names (.file content)) := by
  intro ns e he
  rw [entryAt?_put]
  split
  · next root => exact ⟨_, rfl, .inl (by simpa [root, entryAt?] using he)⟩
  · split
    · next same => exact ⟨_, rfl, .inr ⟨free e (entryAt?_congr same ▸ he), rfl⟩⟩
    · exact ⟨e, he, .inl rfl⟩

theorem entryAt?_of_put {ns : List String} {e : Entry}
    (he : (f.put names (.file content)).entryAt? ns = some e) (other : e.isFile = false) :
    f.entryAt? ns = some e := by
  rw [entryAt?_put] at he
  split at he
  · next root => rw [root]; exact he
  · split at he
    · obtain rfl := Option.some.inj he
      cases other
    · exact he

theorem hasDirectory_of_put {ns : List String}
    (dir : (f.put names (.file content)).hasDirectory ns = true) : f.hasDirectory ns = true :=
  hasDirectory_iff.2 (entryAt?_of_put (hasDirectory_iff.1 dir) rfl)

theorem hasDirectory_put_file (free : f.Free names) (ns : List String) :
    (f.put names (.file content)).hasDirectory ns = f.hasDirectory ns := by
  rw [Bool.eq_iff_iff]
  exact ⟨hasDirectory_of_put, (keeps_put free).hasDirectory⟩

namespace Leads

theorem put (free : f.Free names) {start : List String} (h : Leads f links start parts place) :
    Leads (f.put names (.file content)) links start parts place :=
  h.mono (keeps_put free)

/-- A new file opens the path that leads to it, and no other. -/
theorem of_put (free : f.Free names) {start : List String}
    (h : Leads (f.put names (.file content)) links start parts place) :
    Leads f links start parts place ∨ f.entryAt? names = none ∧ location place = location names := by
  induction h with
  | here ns => exact .inl (.here ns)
  | stay dir dot _ ih => exact ih.imp_left (.stay (hasDirectory_of_put dir) dot)
  | up dir _ ih => exact ih.imp_left (.up (hasDirectory_of_put dir))
  | link dir proper onward short there _ ih =>
    exact ih.imp_left
      (.link (hasDirectory_of_put dir) proper onward short (entryAt?_of_put there rfl))
  | @down _ ns parts place part e dir proper onward short there real rest ih =>
    have dir := hasDirectory_of_put dir
    cases known : f.entryAt? (ns ++ [part]) with
    | some e' =>
      have keeps : Keeps f (f.put names (.file content)) := keeps_put free
      obtain ⟨e'', he'', same⟩ := keeps _ _ known
      obtain rfl : e'' = e := Option.some.inj (he''.symm.trans there)
      refine ih.imp_left (.down dir proper onward short known fun target htarget => ?_)
      rcases same with rfl | ⟨file, -⟩
      · exact real target htarget
      · simp [htarget, Entry.isFile] at file
    | none =>
      -- the path goes through the new file, so it has to end there
      rw [entryAt?_put, if_neg (by simp)] at there
      split at there
      · next same =>
        have absent : f.entryAt? names = none := by rw [← entryAt?_congr same, known]
        cases parts with
        | nil =>
          cases rest
          exact .inr ⟨absent, same⟩
        | cons p ps =>
          have further := hasDirectory_of_put (rest.hasDirectory (List.cons_ne_nil p ps))
          simp [hasDirectory_iff, known] at further
      · simp [known] at there

end Leads

theorem find_of_resolve {e : Entry} (hp : f.resolve p = .ok place)
    (he : f.entryAt? place = some e) : f.find p = .ok e :=
  find_eq_ok_iff.2 ⟨place, hp, he⟩

theorem resolve_put (free : f.Free names) (h : f.resolve p = .ok place) :
    (f.put names (.file content)).resolve p = .ok place := by
  obtain ⟨start, hstart, n, enough, hleads⟩ := resolve_eq_ok_iff.1 h
  exact resolve_eq_ok_iff.2 ⟨start, hstart, n, enough, hleads.put free⟩

/-- A path that leads somewhere now led there before, or it leads to the new file. -/
theorem resolve_of_put_or (free : f.Free names)
    (h : (f.put names (.file content)).resolve p = .ok place) :
    f.resolve p = .ok place ∨ f.entryAt? names = none ∧ location place = location names := by
  obtain ⟨start, hstart, n, enough, hleads⟩ := resolve_eq_ok_iff.1 h
  exact (hleads.of_put free).imp_left (resolve_of_leads hstart enough)

/-- A new file shows on the paths that lead to it. On all others the same is found as before. -/
theorem find_put (content : ByteArray) (free : f.Free names) (p : Path) :
    (∃ place, (f.put names (.file content)).resolve p = .ok place ∧
        location place = location names) ∨
      ((f.put names (.file content)).find p).toOption = (f.find p).toOption := by
  have elsewhere {ns : List String} (other : location ns ≠ location names) :
      (f.put names (.file content)).entryAt? ns = f.entryAt? ns := by
    rw [entryAt?_put, if_neg other]
    split
    · next h => rw [h]; rfl
    · rfl
  cases hg : (f.put names (.file content)).find p with
  | ok e =>
    obtain ⟨place, hplace, he⟩ := find_eq_ok_iff.1 hg
    by_cases same : location place = location names
    · exact .inl ⟨place, hplace, same⟩
    · have hf := (resolve_of_put_or free hplace).resolve_right fun h => same h.2
      rw [elsewhere same] at he
      exact .inr (by rw [find_of_resolve hf he])
  | error _ =>
    cases hf : f.find p with
    | error _ => exact .inr rfl
    | ok e =>
      obtain ⟨place, hplace, he⟩ := find_eq_ok_iff.1 hf
      have keeps : Keeps f (f.put names (.file content)) := keeps_put free
      obtain ⟨e', he', -⟩ := keeps _ _ he
      simp [find_of_resolve (resolve_put free hplace) he'] at hg

/-- Two paths that lead to one place. -/
def Meet (f : Files) (p q : Path) : Prop :=
  ∃ a b, f.resolve p = .ok a ∧ f.resolve q = .ok b ∧ location a = location b

theorem Meet.refl (h : f.resolve p = .ok place) : f.Meet p p := ⟨place, place, h, h, rfl⟩

theorem Meet.find {q : Path} {e : Entry} (meet : f.Meet p q) (h : f.find q = .ok e) :
    f.find p = .ok e := by
  obtain ⟨a, b, ha, hb, same⟩ := meet
  obtain ⟨b', hb', he⟩ := find_eq_ok_iff.1 h
  obtain rfl : b' = b := Except.ok.inj (hb'.symm.trans hb)
  exact find_of_resolve ha (by rw [entryAt?_congr same, he])

theorem Meet.symm {q : Path} (meet : f.Meet p q) : f.Meet q p := by
  obtain ⟨a, b, ha, hb, same⟩ := meet
  exact ⟨b, a, hb, ha, same.symm⟩

/-- A path to a file that was there already led there before. -/
theorem resolve_of_put (free : f.Free names)
    (h : (f.put names (.file content)).resolve p = .ok names)
    (known : (f.entryAt? names).isSome = true) : f.resolve p = .ok names :=
  (resolve_of_put_or free h).resolve_right fun new => by simp [new.1] at known

/-- Two paths to a new file met before if one of them found anything. -/
theorem Meet.of_put {q : Path} {e : Entry} (free : f.Free names)
    (meet : (f.put names (.file content)).Meet p q)
    (hq : (f.put names (.file content)).resolve q = .ok names) (hp : f.find p = .ok e) :
    f.Meet p q := by
  obtain ⟨a, b, ha, hb, same⟩ := meet
  obtain rfl : b = names := Except.ok.inj (hb.symm.trans hq)
  obtain ⟨a', ha', he⟩ := find_eq_ok_iff.1 hp
  obtain rfl : a = a' := Except.ok.inj (ha.symm.trans (resolve_put free ha'))
  exact ⟨a, b, ha', resolve_of_put free hq (by rw [← entryAt?_congr same, he]; rfl), same⟩

theorem resolve_put_directory_iff (free : f.Free names) :
    (f.put names (.file content)).resolve p = .ok place ∧
        (f.put names (.file content)).hasDirectory place = true ↔
      f.resolve p = .ok place ∧ f.hasDirectory place = true := by
  rw [hasDirectory_put_file free]
  refine and_congr_left fun dir => ⟨fun h => ?_, resolve_put free⟩
  refine (resolve_of_put_or free h).resolve_right fun new => ?_
  cases free .directory ((entryAt?_congr new.2).symm.trans (hasDirectory_iff.1 dir))

end Files
end PromptAssembly
