import PromptAssembly.Proofs.Files.Following

/-!
# Making files and directories

What is written under a path is found there (`exists_of_write`). A directory is made by adding
directories where there was nothing (`Grows`), all of them on the way to it (`MadeFor`).
-/
namespace PromptAssembly.Files

variable {f g : Files} {names parts place : List String} {p : Path} {content : ByteArray}

/-- The last part that is not empty, and those around it. -/
theorem parts_of_dropWhile {last : String} {before : List String}
    (h : p.parts.reverse.dropWhile (· = "") = last :: before) : last ≠ "" ∧
      ∃ blank, p.parts = before.reverse ++ last :: blank ∧ ∀ part ∈ blank, part = "" := by
  constructor
  · have hhead := List.head?_dropWhile_not (· = "") p.parts.reverse
    simpa [h] using hhead
  · have hsplit := List.takeWhile_append_dropWhile (p := (· = "")) (l := p.parts.reverse)
    have hblank := List.all_takeWhile (p := (· = "")) (l := p.parts.reverse)
    rw [h] at hsplit
    refine ⟨(p.parts.reverse.takeWhile (· = "")).reverse, ?_, fun part hp => ?_⟩
    · have hreverse := congrArg List.reverse hsplit
      simpa using hreverse.symm
    · simpa using List.all_eq_true.1 hblank part (List.mem_reverse.1 hp)

/-- Where a path leads whose last part that is not empty is to be made: it has to be a name, and the
parts before it lead to a directory. -/
theorem exists_of_place {last : String} {slashed : Bool}
    (h : f.place p = .ok (names, last, slashed)) (named : last ≠ "") :
    ∃ start before trailing, f.start p = .ok start ∧ p.parts = before ++ last :: trailing ∧
      (∀ part ∈ trailing, part = "") ∧ (∃ n ≤ maxLinks, Leads f n start before names) ∧
      f.hasDirectory names = true ∧ ¬ (last = "" ∨ last = ".") ∧ last ≠ ".." ∧
      last.utf8ByteSize ≤ 255 := by
  unfold Files.place at h
  cases hstart : f.start p with
  | error e => simp [hstart] at h
  | ok start =>
    simp only [hstart, ok_bind] at h
    cases hrest : p.parts.reverse.dropWhile (· = "") with
    | nil =>
      simp only [hrest, pure_eq_ok, Except.ok.injEq, Prod.mk.injEq] at h
      exact absurd h.2.1.symm named
    | cons l before =>
      obtain ⟨hl, blank, hparts, hblank⟩ := parts_of_dropWhile hrest
      rw [hrest] at h
      cases hwalk : f.walk false maxLinks start before.reverse with
      | error e => simp [hwalk] at h
      | ok ns =>
        simp only [hwalk, ok_bind] at h
        by_cases dir : f.hasDirectory ns = true
        · by_cases dots : l = "." ∨ l = ".."
          · simp only [dir, if_pos dots] at h
            cases hl : f.walk false maxLinks ns [l] with
            | error e => simp [hl] at h
            | ok ms =>
              simp only [hl, pure_eq_ok, ok_bind, Bool.not_true, Bool.false_eq_true, if_false,
                Except.ok.injEq, Prod.mk.injEq] at h
              exact absurd h.2.1.symm named
          · by_cases long : 255 < l.utf8ByteSize
            · simp [dir, dots, long] at h
            · simp only [dir, if_neg dots, if_neg long, pure_eq_ok, Bool.not_true,
                Bool.false_eq_true, if_false, Except.ok.injEq, Prod.mk.injEq] at h
              obtain ⟨rfl, rfl, -⟩ := h
              rw [not_or] at dots
              exact ⟨start, before.reverse, blank, rfl, hparts, hblank, walk_eq_ok_iff.1 hwalk, dir,
                by simp [hl, dots], dots.2, by omega⟩
        · simp [dir] at h

theorem eq_ok_of_allow {k : Except Fault Files} (h : (do f.allow names; k) = .ok g) : k = .ok g := by
  cases allowed : f.allow names with
  | error fault => simp [allowed] at h
  | ok => simpa [allowed] using h

/-- What is written under a path is where the path leads from then on, and is all that changes. -/
theorem exists_of_write (h : f.write p content = .ok g) : ∃ place,
    g = f.put place (.file content) ∧ f.Free place ∧ g.resolve p = .ok place := by
  unfold write openFile at h
  cases hstart : f.start p with
  | error e => simp [hstart] at h
  | ok start =>
    simp only [hstart, ok_bind] at h
    cases hwalk : f.walk true maxLinks start p.parts with
    | error e => simp [hwalk] at h
    | ok place =>
      simp only [hwalk, ok_bind] at h
      obtain ⟨hg, free⟩ : g = f.put place (.file content) ∧ f.Free place := by
        cases he : f.entryAt? place with
        | none =>
          rw [he] at h
          exact ⟨(Except.ok.inj (eq_ok_of_allow h)).symm, .of_none he⟩
        | some e =>
          rw [he] at h
          cases e with
          | file _ =>
            exact ⟨(Except.ok.inj (eq_ok_of_allow h)).symm, by simp [Free, he, Entry.isFile]⟩
          | _ => simp at h
      subst hg
      have file : (f.put place (.file content)).entryAt? place = some (.file content) := by
        rw [entryAt?_put, if_neg free.ne_nil, if_pos rfl]
      obtain ⟨n, enough, hleads⟩ :=
        exists_leads_of_walk (keeps_put free) (fun _ _ => ⟨content, file⟩) hwalk
      exact ⟨place, rfl, free,
        resolve_of_leads (start_eq_ok_iff.2 (start_eq_ok_iff.1 hstart)) enough hleads⟩

theorem write_of_overwrite (h : f.overwrite p content = (.ok (), g)) : f.write p content = .ok g := by
  unfold overwrite at h
  cases hfits : fitting f.room content with
  | mk part result =>
    cases hwrite : f.write p part with
    | error fault => simp [hfits, hwrite] at h
    | ok k =>
      obtain ⟨rfl, rfl⟩ : result = .ok () ∧ k = g := by simpa [hfits, hwrite] using h
      obtain rfl : content = part := by
        unfold fitting at hfits
        split at hfits
        · split at hfits
          · simp at hfits
          · exact (Prod.mk.inj hfits).1
        · exact (Prod.mk.inj hfits).1
      exact hwrite

/-- A write that fails has not got as far as the file, or it has run out of room there. -/
theorem exists_of_failed_overwrite {fault : Fault} (h : f.overwrite p content = (.error fault, g)) :
    g = f ∨ ∃ size < content.size, f.room = some (size, fault) ∧
      f.write p (content.extract 0 size) = .ok g := by
  unfold overwrite at h
  cases hfits : fitting f.room content with
  | mk part result =>
    cases hwrite : f.write p part with
    | error fault' => exact .inl (by simpa [hfits, hwrite] using (congrArg Prod.snd h).symm)
    | ok k =>
      obtain ⟨rfl, rfl⟩ : result = .error fault ∧ k = g := by simpa [hfits, hwrite] using h
      unfold fitting at hfits
      split at hfits
      · next size fault' room =>
        split at hfits
        · next short =>
          obtain ⟨rfl, hfault⟩ := Prod.mk.inj hfits
          obtain rfl := Except.error.inj hfault
          exact .inr ⟨size, short, room, hwrite⟩
        · simp at hfits
      · simp at hfits

theorem Leads.of_empty (dir : f.hasDirectory names = true) (empty : ∀ part ∈ parts, part = "") :
    Leads f 0 names parts names := by
  induction parts with
  | nil => exact .here names
  | cons part parts ih =>
    rw [List.forall_mem_cons] at empty
    exact .stay dir (.inl empty.1) (ih empty.2)

/-- Directories may have been made where there was nothing. -/
structure Grows (f g : Files) : Prop where
  working : g.working = f.working
  refusal : g.refusal = f.refusal
  room : g.room = f.room
  entryAt? : ∀ ns, g.entryAt? ns = f.entryAt? ns ∨
    f.entryAt? ns = none ∧ g.entryAt? ns = some .directory

namespace Grows

theorem refl (f : Files) : Grows f f := ⟨rfl, rfl, rfl, fun _ => .inl rfl⟩

theorem trans {k : Files} (h : Grows f g) (h' : Grows g k) : Grows f k := by
  refine ⟨h'.working.trans h.working, h'.refusal.trans h.refusal, h'.room.trans h.room,
    fun ns => ?_⟩
  rcases h.entryAt? ns with same | ⟨absent, made⟩
  · rcases h'.entryAt? ns with same' | ⟨absent', made'⟩
    · exact .inl (same'.trans same)
    · exact .inr ⟨same ▸ absent', made'⟩
  · rcases h'.entryAt? ns with same' | ⟨absent', -⟩
    · exact .inr ⟨absent, same'.trans made⟩
    · simp [made] at absent'

theorem put (absent : f.entryAt? names = none) : Grows f (f.put names .directory) := by
  have hne : names ≠ [] := (Free.of_none absent).ne_nil
  refine ⟨rfl, rfl, rfl, fun ns => ?_⟩
  rw [entryAt?_put]
  split
  · next h => exact .inl (by rw [h]; rfl)
  · next h =>
    split
    · next same => exact .inr ⟨(entryAt?_congr same).trans absent, rfl⟩
    · exact .inl rfl

theorem file (h : Grows f g) (hfile : g.entryAt? place = some (.file content)) :
    f.entryAt? place = some (.file content) := by
  rcases h.entryAt? place with same | ⟨-, made⟩
  · rw [← same, hfile]
  · simp [made] at hfile

theorem kept {e : Entry} (h : Grows f g) (he : f.entryAt? names = some e) :
    g.entryAt? names = some e := by
  rcases h.entryAt? names with same | ⟨absent, -⟩
  · rw [same, he]
  · simp [absent] at he

theorem keeps (h : Grows f g) : Keeps f g := fun _ e he => ⟨e, h.kept he, .inl rfl⟩

theorem start_iff (h : Grows f g) {start : List String} :
    g.start p = .ok start ↔ f.start p = .ok start := by
  rw [start_eq_ok_iff, start_eq_ok_iff, h.working]

theorem resolve (h : Grows f g) (hp : f.resolve p = .ok place) : g.resolve p = .ok place := by
  obtain ⟨start, hstart, n, enough, hleads⟩ := resolve_eq_ok_iff.1 hp
  exact resolve_of_leads (h.start_iff.2 hstart) enough (hleads.mono h.keeps)

end Grows

/-- A directory is made where nothing was, and the path leads there from then on. -/
theorem exists_of_makeDirectory (h : f.makeDirectory p = .ok g) : ∃ place,
    g = f.put place .directory ∧ f.entryAt? place = none ∧ g.resolve p = .ok place := by
  unfold makeDirectory at h
  cases hplace : f.place p with
  | error e => simp [hplace] at h
  | ok found =>
    obtain ⟨names, last, slashed⟩ := found
    simp only [hplace, ok_bind] at h
    split at h
    · simp at h
    · next free =>
      obtain rfl := Except.ok.inj (eq_ok_of_allow h)
      obtain ⟨named, absent⟩ : last ≠ "" ∧ f.entryAt? (names ++ [last]) = none := by
        simpa using free
      obtain ⟨start, before, trailing, hstart, hparts, hempty, ⟨n, enough, hleads⟩, dir, proper,
        onward, short⟩ := exists_of_place hplace named
      have grows : Grows f (f.put (names ++ [last]) .directory) := .put absent
      have made : (f.put (names ++ [last]) .directory).entryAt? (names ++ [last]) =
          some .directory := by
        simp [entryAt?_put]
      refine ⟨_, rfl, absent, resolve_of_leads (grows.start_iff.2 hstart) enough ?_⟩
      rw [hparts]
      exact (hleads.mono grows.keeps).append (.down (grows.keeps.hasDirectory dir) proper onward short
        made nofun (.of_empty (hasDirectory_iff.2 made) hempty))

theorem grows_of_makeDirectory (h : f.makeDirectory p = .ok g) : Grows f g := by
  obtain ⟨place, rfl, absent, -⟩ := exists_of_makeDirectory h
  exact .put absent

/-- A path and those above it: steps are taken off its end, any number of them. -/
inductive Path.Ancestor : Path → Path → Prop
  | self (p : Path) : Path.Ancestor p p
  | parent {p q r : Path} (up : p.parent? = some q) (above : Path.Ancestor q r) : Path.Ancestor p r

/-- Directories may have been made on the way to the path, where there was nothing. -/
structure MadeFor (p : Path) (f g : Files) : Prop extends Grows f g where
  onTheWay : ∀ ns, f.entryAt? ns = none → (g.entryAt? ns).isSome →
    ∃ q place, p.Ancestor q ∧ g.resolve q = .ok place ∧ location place = location ns

namespace MadeFor

theorem refl (p : Path) (f : Files) : MadeFor p f f :=
  ⟨.refl f, fun ns absent there => by simp [absent] at there⟩

theorem trans {k : Files} (h : MadeFor p f g) (h' : MadeFor p g k) : MadeFor p f k := by
  refine ⟨h.toGrows.trans h'.toGrows, fun ns absent there => ?_⟩
  cases first : g.entryAt? ns with
  | none => exact h'.onTheWay ns first there
  | some e =>
    obtain ⟨q, place, above, hq, same⟩ := h.onTheWay ns absent (by simp [first])
    exact ⟨q, place, above, h'.resolve hq, same⟩

theorem of_parent {q : Path} (up : p.parent? = some q) (h : MadeFor q f g) : MadeFor p f g := by
  refine ⟨h.toGrows, fun ns absent there => ?_⟩
  obtain ⟨r, place, above, hr⟩ := h.onTheWay ns absent there
  exact ⟨r, place, .parent up above, hr⟩

theorem of_makeDirectory (h : f.makeDirectory p = .ok g) : MadeFor p f g := by
  refine ⟨grows_of_makeDirectory h, fun ns absent there => ?_⟩
  obtain ⟨place, rfl, -, hp⟩ := exists_of_makeDirectory h
  refine ⟨p, place, .self p, hp, ?_⟩
  rw [entryAt?_put] at there
  split at there
  · next h => simp [h, Files.entryAt?] at absent
  · split at there
    · next same => exact same.symm
    · simp [absent] at there

end MadeFor

theorem madeFor_makeDirectories (fuel : Nat) (f : Files) (p : Path) :
    MadeFor p f (f.makeDirectories fuel p).2 := by
  fun_induction Files.makeDirectories fuel f p with
  | case1 | case6 => exact .refl _ _
  | case2 _ _ _ _ made => exact .of_makeDirectory made
  | case3 _ _ _ _ _ up _ _ above ih => exact .of_parent up (by simpa [above] using ih)
  | case4 _ _ _ _ _ up _ above _ made ih =>
    exact .trans (.of_parent up (by simpa [above] using ih)) (.of_makeDirectory made)
  | case5 _ _ check _ _ _ up _ above _ _ ih =>
    exact .of_parent up (by simpa [check, above] using ih)
  | case7 => exact .refl _ _

theorem madeFor_createAll (f : Files) (p : Path) : MadeFor p f (f.createAll p).2 :=
  madeFor_makeDirectories p.length f p

theorem grows_createAll (f : Files) (p : Path) : Grows f (f.createAll p).2 :=
  (madeFor_createAll f p).toGrows

theorem makeDirectory_of_resolve (h : f.resolve p = .ok place) :
    f.makeDirectory p = .error .alreadyThere := by
  obtain ⟨start, hstart, links, enough, hleads⟩ := resolve_eq_ok_iff.1 h
  unfold makeDirectory Files.place
  cases hrest : p.parts.reverse.dropWhile (· = "") with
  | nil => simp [hstart]
  | cons l before =>
    obtain ⟨hl, blank, hparts, -⟩ := parts_of_dropWhile hrest
    rw [hparts] at hleads
    obtain ⟨m, n, middle, sum, hfront, hback⟩ := hleads.exists_of_append
    have hmiddle := hback.hasDirectory (by simp)
    have hwalk : f.walk false maxLinks start before.reverse = .ok middle := hfront.walk (by omega)
    by_cases dots : l = "." ∨ l = ".."
    · obtain ⟨i, j, final, sum', hl', -⟩ :=
        Leads.exists_of_append (show Leads f n middle ([l] ++ _) place from hback)
      have hlast : f.walk false maxLinks middle [l] = .ok final := hl'.walk (by omega)
      simp [hstart, hwalk, hmiddle, dots, hlast]
    · cases hback with
      | stay _ dot _ => exact absurd (.inl (dot.resolve_left hl)) dots
      | up _ _ => simp at dots
      | down _ _ _ short there =>
        have : ¬ 255 < l.utf8ByteSize := Nat.not_lt.2 short
        simp [hstart, hwalk, hmiddle, dots, this, there]
      | link _ _ _ short there =>
        have : ¬ 255 < l.utf8ByteSize := Nat.not_lt.2 short
        simp [hstart, hwalk, hmiddle, dots, this, there]

theorem makeDirectories_empty (fuel : Nat) : f.makeDirectories fuel "" = (.ok (), f) := by
  unfold makeDirectories
  rfl

theorem createAll_empty : f.createAll "" = (.ok (), f) := makeDirectories_empty _

theorem makeDirectories_of_isDirectory (fuel : Nat) (h : f.isDirectory p = true) :
    f.makeDirectories fuel p = (.ok (), f) := by
  obtain ⟨place, hp, -⟩ := isDirectory_iff_exists.1 h
  unfold makeDirectories
  simp [makeDirectory_of_resolve hp, h]

theorem createAll_of_isDirectory (h : f.isDirectory p = true) : f.createAll p = (.ok (), f) :=
  makeDirectories_of_isDirectory _ h

theorem createAll_of_contains (h : f.contains p = true) : (f.createAll p).2 = f := by
  obtain ⟨e, he⟩ := contains_iff.1 h
  obtain ⟨place, hp, -⟩ := find_eq_ok_iff.1 he
  unfold createAll makeDirectories
  split
  · rfl
  · simp [makeDirectory_of_resolve hp]

end PromptAssembly.Files
