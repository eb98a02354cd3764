import PromptAssembly.Proofs.Repository.Confinement

/-!
# Saves that fail

Before a save comes to its file it makes the root, and nothing takes that back. So a save that fails
may leave directories that lead to the root, and if it runs out of room while it writes the file, the
file is left with a beginning of the manifest. All else is as it was (`files_after_failed_save`).
-/
namespace PromptAssembly.Repository.Directory
open Prompt (Config)
open Files (Path Entry Fault Grows MadeFor location)

variable {d : Directory} {f g made : Files} {c : Config} {e : Error} {names : List String}

/-- The file that is saved to has run out of room and holds a beginning of the manifest, whatever it
held before. -/
def Begun (d : Directory) (c : Config) (f g : Files) (e : Error) (names : List String) : Prop :=
  ∃ size fault place, f.room = some (size, fault) ∧ size < c.print.toUTF8.size ∧
    e = unwritten (d.named c.taskType "yaml") fault ∧
    g.resolve (d.named c.taskType "yaml") = .ok place ∧ location place = location names ∧
    f.Free names ∧ g.entryAt? names = some (.file (c.print.toUTF8.extract 0 size))

theorem begun_of_write {size : Nat} {fault : Fault} (grows : Grows f made)
    (room : made.room = some (size, fault)) (short : size < c.print.toUTF8.size)
    (written : made.write (d.named c.taskType "yaml") (c.print.toUTF8.extract 0 size) = .ok g)
    (cause : e = unwritten (d.named c.taskType "yaml") fault) :
    g.working = made.working ∧ g.refusal = made.refusal ∧ g.room = made.room ∧ ∃ place, Begun d c f g e place ∧
      ∀ names, location names = location place ∨ g.entryAt? names = made.entryAt? names := by
  obtain ⟨place, rfl, free, hplace⟩ := Files.exists_of_write written
  have file : (made.put place (.file (c.print.toUTF8.extract 0 size))).entryAt? place =
      some (.file (c.print.toUTF8.extract 0 size)) := by
    rw [Files.entryAt?_put, if_neg free.ne_nil, if_pos rfl]
  have free' : f.Free place := by
    intro e he
    exact free e (grows.kept he)
  refine ⟨rfl, rfl, rfl, place, ⟨size, fault, place, grows.room ▸ room, short, cause, hplace, rfl, free',
    file⟩, fun names => ?_⟩
  rw [Files.entryAt?_put]
  split
  · next root => exact .inr (by rw [root]; rfl)
  · split
    · next same => exact .inl same
    · exact .inr rfl

theorem Begun.congr {place : List String} (begun : Begun d c f g e place)
    (same : location names = location place) : Begun d c f g e names := by
  obtain ⟨size, fault, p, room, short, cause, hp, hplace, free, file⟩ := begun
  refine ⟨size, fault, p, room, short, cause, hp, hplace.trans same.symm, ?_, ?_⟩
  · rwa [Files.Free, Files.entryAt?_congr same]
  · rwa [Files.entryAt?_congr same]

/-- In any tree of files, whatever in it refuses to be changed: a save that fails changes nothing but
that directories may have been made, each of them on the way to the root and where there was nothing,
and that the file may have been begun. Nothing at all changes without a task type, and nothing but
that file if there is no root to be made. -/
theorem files_after_failed_save (failed : d.savePrompt c f = (.error e, g)) :
    g.working = f.working ∧ g.refusal = f.refusal ∧ g.room = f.room ∧
    (∀ names, g.entryAt? names = f.entryAt? names ∨
      (f.entryAt? names = none ∧ g.entryAt? names = some .directory ∧
        ∃ p place, d.root.Ancestor p ∧ g.resolve p = .ok place ∧ location place = location names) ∨
      Begun d c f g e names) ∧
    (c.taskType = "" → g = f) ∧
    (d.root = "" ∨ f.contains d.root = true → g = f ∨ ∃ place, Begun d c f g e place ∧
      ∀ names, location names = location place ∨ g.entryAt? names = f.entryAt? names) := by
  have inPlace (there : d.root = "" ∨ f.contains d.root = true) : (f.createAll d.root).2 = f := by
    rcases there with root | root
    · rw [root, Files.createAll_empty]
    · exact Files.createAll_of_contains root
  have dirs := Files.madeFor_createAll f d.root
  cases stopped_of_savePrompt failed with
  | atOnce _ same =>
    subst same
    exact ⟨rfl, rfl, rfl, fun _ => .inl rfl, fun _ => rfl, fun _ => .inl rfl⟩
  | beforeFile something root =>
    subst root
    refine ⟨dirs.working, dirs.refusal, dirs.room, fun names => ?_,
      fun nothing => absurd nothing something, fun there => .inl (inPlace there)⟩
    rcases dirs.entryAt? names with same | ⟨absent, new⟩
    · exact .inl same
    · exact .inr (.inl ⟨absent, new, dirs.onTheWay names absent (by simp [new])⟩)
  | @amidFile made size fault something confined root room short written cause =>
    rw [root] at dirs inPlace
    obtain ⟨working, refusal, room', place, begun, others⟩ :=
      begun_of_write dirs.toGrows room short written cause
    refine ⟨working.trans dirs.working, refusal.trans dirs.refusal, room'.trans dirs.room,
      fun names => ?_, fun nothing => absurd nothing something, fun there => .inr ⟨place, begun, ?_⟩⟩
    · rcases others names with same | same
      · exact .inr (.inr (begun.congr same))
      · rw [same]
        rcases dirs.entryAt? names with same | ⟨absent, new⟩
        · exact .inl same
        · obtain ⟨p, place', above, hp, hplace⟩ := dirs.onTheWay names absent (by simp [new])
          obtain ⟨place'', rfl, free, -⟩ := Files.exists_of_write written
          exact .inr (.inl ⟨absent, new, p, place', above, Files.resolve_put free hp, hplace⟩)
    · have unchanged : made = f := inPlace there
      exact unchanged ▸ others

/-- A root of two names stays with the directory it lies in, and nothing below it was made. -/
example :
    [["r"], ["r", "s"], ["r", "s", "a"]].map
      (savePrompt { root := "r/s" } { taskType := "a/b" } {}).2.hasDirectory =
        [true, true, false] := by
  decide +kernel

/-- A root that takes no new entries. -/
example :
    (savePrompt { root := "r" } { taskType := "a" }
      { entries := Dict.ofList [("/r", .directory)]
        refusal := fun l => if l = "/r" then some .denied else none }).1 =
      .error (unwritten "r/a.yaml" .denied) := by
  decide +kernel

/-- A manifest in the working directory, and room for nine bytes. -/
def crammed : Files where
  entries := Dict.ofList [("/a.yaml", .file "kind: P".toUTF8)]
  room := some (9, .noSpace)

/-- The first save has no directory to write to, the second no room. -/
def inNewRoot : Except Error Unit × Files :=
  savePrompt { root := "r" } { taskType := "a/b" } crammed

def overManifest : Except Error Unit × Files := savePrompt { root := "" } { taskType := "a" } crammed

theorem savePrompt_crammed :
    inNewRoot = (.error (unwritten "r/a/b.yaml" .notFound), inNewRoot.2) ∧
      overManifest = (.error (unwritten "a.yaml" .noSpace), overManifest.2) :=
  ⟨Prod.ext (by decide +kernel) rfl, Prod.ext (by decide +kernel) rfl⟩

/-- A root that is new beside the file, and a file of which a beginning is all there is. -/
theorem files_after_failed_save_twice :
    (inNewRoot.2.entryAt? ["a.yaml"] = crammed.entryAt? ["a.yaml"] ∧
      ∃ p place, Path.Ancestor "r" p ∧ inNewRoot.2.resolve p = .ok place ∧ location place = "/r") ∧
    overManifest.2.entryAt? ["a.yaml"] = some (.file "apiVersio".toUTF8) := by
  obtain ⟨-, -, -, entries, -, -⟩ := files_after_failed_save savePrompt_crammed.1
  obtain ⟨-, -, -, -, -, inPlace⟩ := files_after_failed_save savePrompt_crammed.2
  have unbegun (names : List String) : ¬ Begun { root := "r" } { taskType := "a/b" } crammed inNewRoot.2
      (unwritten "r/a/b.yaml" .notFound) names := by
    rintro ⟨size, fault, -, room, -, cause, -⟩
    obtain ⟨-, rfl⟩ := Prod.mk.inj (Option.some.inj room)
    exact absurd cause (by decide +kernel)
  refine ⟨⟨?file, ?root⟩, ?begun⟩
  case file =>
    refine (entries ["a.yaml"]).resolve_right ?_
    rintro (⟨absent, -⟩ | begun)
    · have there : (crammed.entryAt? ["a.yaml"]).isSome = true := by decide +kernel
      simp [absent] at there
    · exact unbegun _ begun
  case root =>
    rcases entries ["r"] with same | ⟨-, -, made⟩ | begun
    · have new : (inNewRoot.2.entryAt? ["r"]).isSome ≠ (crammed.entryAt? ["r"]).isSome := by
        decide +kernel
      exact absurd (congrArg Option.isSome same) new
    · exact made
    · exact absurd begun (unbegun _)
  case begun =>
    rcases inPlace (.inl rfl) with same | ⟨place, begun, -⟩
    · have changed : overManifest.2.readText "a.yaml" ≠ crammed.readText "a.yaml" := by
        decide +kernel
      exact absurd (congrArg (·.readText "a.yaml") same) changed
    · obtain ⟨size, fault, place', room, -, -, hplace', same, -, file⟩ := begun
      obtain ⟨rfl, -⟩ := Prod.mk.inj (Option.some.inj room)
      have here : overManifest.2.resolve (named { root := "" } "a" "yaml") = .ok ["a.yaml"] := by
        decide +kernel
      obtain rfl := Except.ok.inj (here.symm.trans hplace')
      rw [Files.entryAt?_congr same, file]
      exact congrArg (some ∘ Entry.file) (by decide +kernel)

/-- The root is left behind. -/
theorem root_left_by_failed_save : ¬ ∀ (d : Directory) (f g : Files) (c : Config) (e : Error),
    d.savePrompt c f = (.error e, g) → g = f := by
  intro h
  have same := h _ _ _ _ _ savePrompt_crammed.1
  have made : inNewRoot.2.hasDirectory ["r"] ≠ crammed.hasDirectory ["r"] := by decide +kernel
  exact absurd (congrArg (·.hasDirectory ["r"]) same) made

end PromptAssembly.Repository.Directory
