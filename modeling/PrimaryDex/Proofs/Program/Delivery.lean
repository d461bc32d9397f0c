import PrimaryDex.Program.Basic
import PrimaryDex.Proofs.ClassFile.References
import PrimaryDex.Proofs.ClassPath.Listing
import PrimaryDex.Proofs.Closure.MissingRoot
import PrimaryDex.Proofs.CommandLine.Taking
import PrimaryDex.Proofs.FileTree.Saving

namespace PrimaryDex

/-!
# What a run leaves behind

Finding an answer changes nothing. Only saving it does, so that a run that fails before leaves nothing
behind, and one that fails in saving leaves folders at most, or a first part of the list if writing
breaks off.

* `Answer.BreaksOff` — a first part of a text was written;
* `Answer.save_spec` — what saving a text leaves behind, whether it goes through or not;
* `Surroundings.Finds` — what a build comes to before anything is written;
* `Surroundings.run_leaves` — what a whole run leaves behind.
-/

open FileSystem (MakesParents Saves)

/-! ### Saving an answer -/

namespace Answer

variable {files : FileSystem} {path text : String}

/-- The run ends where the text was to be written. -/
def FailsToSave (path : String) (e : Ending) : Prop :=
  ∃ cause, e = .failed (.outputFolder cause) ∨ e = .failed (.outputFile path cause)

/-- There was no room for all of the text. What stood at the path has given way to the part for which
    there was. -/
def BreaksOff (before after : FileSystem) (path text : String) : Prop :=
  ∃ room cause, before.limit = some ⟨room, cause⟩ ∧ room < text.toUTF8.size
    ∧ before.Saves after path (text.toUTF8.extract 0 room)

/-- Saving a text goes through, or adds folders at most, or breaks off. Nothing is written to the
    output. -/
theorem save_spec {r : Outcome} (h : save files path text = r) : r.output = ""
    ∧ (r.ending = .done ∧ files.Saves r.files path text.toUTF8
      ∨ FailsToSave path r.ending
        ∧ (files.MakesParents r.files path ∨ BreaksOff files r.files path text)) := by
  have hparent := FileSystem.makesParents_makeParent files path
  have hwrite := FileSystem.saves_writeFile hparent text.toUTF8
  simp only [save] at h
  generalize files.makeParent path = folder at h hparent hwrite
  generalize folder.after.writeFile path text.toUTF8 = file at h hwrite
  -- The folder is made first, and what it could not be made for is the fault.
  split at h
  · rename_i cause hcause
    subst h
    exact ⟨rfl, .inr ⟨⟨cause, .inl rfl⟩, .inl hparent⟩⟩
  · split at h
    · rename_i cause hcause
      subst h
      refine ⟨rfl, .inr ⟨⟨cause, .inr rfl⟩, ?_⟩⟩
      rcases hwrite.2 cause hcause with hsame | ⟨room, hlimit, hroom, hpart⟩
      · left
        show files.MakesParents file.after path
        rwa [hsame]
      · exact .inr ⟨room, cause, hlimit, hroom, hpart⟩
    · rename_i hdone
      subst h
      exact ⟨rfl, .inl ⟨rfl, hwrite.1 hdone⟩⟩

end Answer

/-! ### Whole runs -/

/-- The file that a command writes. -/
def Command.output? : Command → Option String
  | build options => options.output
  | list _ => none

namespace Surroundings

variable {s : Surroundings} {l : CommandLine}

/-- What a build comes to before anything is written: its roots, their closure and the format. -/
def Finds (s : Surroundings) (l : CommandLine) (roots names : List ClassName)
    (format : OutputFormat) : Prop :=
  ∃ o settings locations cp, l.command = .build o
    ∧ Settings.load s.files s.configFolder l.config = .ok settings
    ∧ s.roots settings o = .ok roots
    ∧ settings.chosenClassPath o.classPath s.classPath = .ok locations
    ∧ ClassPath.ofLocations s.files locations = .ok cp
    ∧ cp.closure s.files roots = .ok names
    ∧ format = settings.chosenFormat o.format

/-- A build that has an answer has found its closure. -/
theorem exists_finds_of_build {settings : Settings} {o : BuildOptions} {a : Answer}
    (hl : l.command = .build o)
    (hs : Settings.load s.files s.configFolder l.config = .ok settings)
    (h : s.build settings o = .ok a) :
    ∃ roots names format, s.Finds l roots names format
      ∧ a = .closure names roots.length format o.output := by
  obtain ⟨roots, hroots, h⟩ := bind_eq_ok_iff.1 h
  obtain ⟨locations, hlocations, h⟩ := bind_eq_ok_iff.1 h
  obtain ⟨cp, hcp, h⟩ := bind_eq_ok_iff.1 h
  obtain ⟨names, hnames, h⟩ := bind_eq_ok_iff.1 h
  exact ⟨roots, names, settings.chosenFormat o.format,
    ⟨o, settings, locations, cp, hl, hs, hroots, hlocations, mapError_eq_ok_iff.1 hcp,
      mapError_eq_ok_iff.1 hnames, rfl⟩,
    (Except.ok.inj h).symm⟩

/-- An answer goes to the file that the command names, and then it is a closure. -/
theorem exists_finds_of_answer {a : Answer} (h : s.answer l = .ok a) :
    a.target? = l.command.output? ∧ ∀ path, a.target? = some path →
      ∃ roots names format, s.Finds l roots names format
        ∧ ∀ ms, a.text ms = format.render ⟨roots.length, names, ms⟩ := by
  obtain ⟨settings, hs, h⟩ := bind_eq_ok_iff.1 h
  cases hl : l.command with
  | build o =>
    rw [hl] at h
    replace h : s.build settings o = .ok a := h
    obtain ⟨roots, names, format, hfinds, rfl⟩ := exists_finds_of_build hl hs h
    exact ⟨rfl, fun _ _ => ⟨roots, names, format, hfinds, fun _ => rfl⟩⟩
  | list location =>
    rw [hl] at h
    replace h : s.list location = .ok a := h
    unfold Surroundings.list at h
    split at h
    · obtain rfl := Except.ok.inj h
      exact ⟨rfl, by simp [Answer.target?]⟩
    · simp at h

/-- A run that ends with an error says so by its status. -/
theorem status_ofError_ne_zero (cause : RunError) : (Ending.ofError cause).status ≠ 0 := by
  unfold Ending.ofError
  split <;> simp [Ending.status]

/-- A build comes to one thing only. -/
theorem Finds.unique {roots roots' names names' : List ClassName} {format format' : OutputFormat}
    (h : s.Finds l roots names format) (h' : s.Finds l roots' names' format') :
    roots = roots' ∧ names = names' ∧ format = format' := by
  obtain ⟨o, settings, locations, cp, hl, hs, hroots, hlocations, hcp, hnames, rfl⟩ := h
  obtain ⟨o', settings', locations', cp', hl', hs', hroots', hlocations', hcp', hnames', rfl⟩ := h'
  -- Each step of a build is a function of those before it.
  obtain rfl := Command.build.inj (hl.symm.trans hl')
  obtain rfl := Except.ok.inj (hs.symm.trans hs')
  obtain rfl := Except.ok.inj (hroots.symm.trans hroots')
  obtain rfl := Except.ok.inj (hlocations.symm.trans hlocations')
  obtain rfl := Except.ok.inj (hcp.symm.trans hcp')
  exact ⟨rfl, Except.ok.inj (hnames.symm.trans hnames'), rfl⟩

/-- **What a run leaves behind.** If a run with a command line that can be followed fails, it writes
    nothing to the output and changes no file, unless it fails in saving to the file that was asked for:
    then missing folders on the way to that file are all that it adds, or writing has broken off, and a
    first part of the closure stands where the whole was to be. If it does not fail, it changes nothing
    if no file was asked for, and else it adds such folders and writes the whole closure: the file holds
    it and nothing else, and a device has taken it. -/
theorem run_leaves (s : Surroundings) (ms : Nat) {arguments : List String} {l : CommandLine}
    (h : CommandLine.parse (CommandLine.withBuild arguments) = .ok l) :
    ((s.run ms arguments).ending.status = 1 →
        (s.run ms arguments).output = ""
          ∧ ((s.run ms arguments).files = s.files
            ∨ ∃ path, l.command.output? = some path
              ∧ Answer.FailsToSave path (s.run ms arguments).ending
              ∧ (s.files.MakesParents (s.run ms arguments).files path
                ∨ ∃ roots names format, s.Finds l roots names format
                  ∧ Answer.BreaksOff s.files (s.run ms arguments).files path
                    (format.render ⟨roots.length, names, ms⟩))))
      ∧ ((s.run ms arguments).ending.status = 0 →
        (l.command.output? = none → (s.run ms arguments).files = s.files)
          ∧ ∀ path, l.command.output? = some path →
            ∃ roots names format, s.Finds l roots names format
              ∧ s.files.Saves (s.run ms arguments).files path
                (format.render ⟨roots.length, names, ms⟩).toUTF8) := by
  have hrun : s.run ms arguments = s.follow ms l := by
    rw [run, h]
  rw [hrun]
  cases ha : s.answer l with
  | error cause =>
    have hfollow : s.follow ms l = ⟨.ofError cause, "", s.files⟩ := by
      rw [follow, ha]
    rw [hfollow]
    exact ⟨fun _ => ⟨rfl, .inl rfl⟩, fun hs => absurd hs (status_ofError_ne_zero cause)⟩
  | ok a =>
    have hfollow : s.follow ms l = a.deliver s.files ms := by
      rw [follow, ha]
    obtain ⟨htarget, hfinds⟩ := exists_finds_of_answer ha
    rw [hfollow]
    cases ht : a.target? with
    | none =>
      have hdeliver : a.deliver s.files ms = ⟨.done, Answer.line (a.text ms), s.files⟩ := by
        rw [Answer.deliver, ht]
      rw [hdeliver, ← htarget, ht]
      exact ⟨fun hs => absurd hs (by simp [Ending.status]), fun _ => ⟨fun _ => rfl, by simp⟩⟩
    | some path =>
      have hdeliver : a.deliver s.files ms = Answer.save s.files path (a.text ms) := by
        rw [Answer.deliver, ht]
      obtain ⟨houtput, hsave⟩ := Answer.save_spec hdeliver.symm
      rw [← htarget, ht]
      obtain ⟨roots, names, format, hf, htext⟩ := hfinds path ht
      rw [htext] at hsave
      -- Saving went through or not, and the status tells which.
      rcases hsave with ⟨hdone, hsaved⟩ | ⟨hfails, hleft⟩
      · refine ⟨fun hs => absurd hs (by simp [hdone, Ending.status]), fun _ => ⟨by simp, ?_⟩⟩
        rintro path' ⟨⟩
        exact ⟨roots, names, format, hf, hsaved⟩
      · refine ⟨fun _ => ⟨houtput, .inr ⟨path, rfl, hfails, ?_⟩⟩, fun hs => ?_⟩
        · exact hleft.imp id fun hpart => ⟨roots, names, format, hf, hpart⟩
        · obtain ⟨cause, hcause | hcause⟩ := hfails
          · simp [hcause, Ending.status] at hs
          · simp [hcause, Ending.status] at hs

end Surroundings

/-! ### Runs that save a list -/

namespace Sample

/-- A folder with a class file, an older list and a device. -/
def desk (limit : Option WriteLimit) : FileSystem where
  root := .ofEntries [("d", .ofEntries [("Sound.class", .ofContent soundContent)]),
    ("list", .ofContent "old".toUTF8), ("null", .device {})]
  working := []
  limit := limit

/-- The folder is the class path. -/
def atDesk (limit : Option WriteLimit) : Surroundings := ⟨desk limit, some "d", none⟩

/-- A build over one root that is written to a file. -/
def buildOf (root path : String) : CommandLine :=
  ⟨.build ⟨none, none, [root], none, none, some path⟩, none, false, false⟩

/-- Whatever room the disk has, the folder is there. -/
theorem stat_desk (limit : Option WriteLimit) :
    (desk limit).stat "d" = .ok (.ofEntries [("Sound.class", .ofContent soundContent)]) :=
  FileSystem.stat_of_at? (by decide) (by decide) rfl rfl nofun rfl (by decide)

theorem ofLocations_desk (limit : Option WriteLimit) :
    ClassPath.ofLocations (desk limit) ["d"] = .ok ⟨[.folder "d" false]⟩ := by
  rw [ClassPath.ofLocations, List.mapM_cons, Container.ofLocation_of_stat (stat_desk limit)]
  rfl

/-- The class is found in it. -/
theorem find_sound (limit : Option WriteLimit) :
    ((⟨[.folder "d" false]⟩ : ClassPath).source (desk limit)).find sound = .ok soundFile := by
  have hopen : (Container.folder "d" false).open (desk limit) sound.path = .ok (.ok soundContent) :=
    Container.open_folder_of_at? sound.path (stat_desk limit) rfl (by decide) (by decide) (by decide)
  show ClassPath.loadFrom (desk limit) sound [.folder "d" false] = _
  rw [ClassPath.loadFrom_cons_of_open hopen, decodeFile_sound]

/-- The class refers to itself alone. -/
theorem referenced_sound : soundFile.referenced = .ok [sound] := by
  have h : soundFile.pool.entries.mapM (fun x => soundFile.pool.classesOf x.2)
      = .ok [[], [sound]] := by decide
  have hrefs : soundFile.references = .ok [sound] :=
    ClassHeader.references_eq_ok_iff.2 ⟨_, h, by rw [firstOccurrences_eq_eraseDups]; decide⟩
  rw [ClassFile.referenced, hrefs]

/-- The closure is the class itself. -/
theorem closure_desk (limit : Option WriteLimit) :
    (⟨[.folder "d" false]⟩ : ClassPath).closure (desk limit) [sound] = .ok [sound] := by
  have start : Stage.start [sound] = ⟨[], [sound]⟩ := by decide
  have settled : Stage.settle ⟨[], []⟩ sound [] [sound] = ⟨[sound], []⟩ := by decide
  have step : Stage.Step ((⟨[.folder "d" false]⟩ : ClassPath).source (desk limit)) [sound]
      ⟨[], [sound]⟩ _ :=
    .settle (find_sound limit) (ClassSource.lineage_nil _) referenced_sound
  rw [settled] at step
  unfold ClassPath.closure
  rw [ClassSource.closure_eq_ok_iff, start]
  exact .single step

/-- A class that the folder does not have is a missing root. -/
theorem closure_gone (limit : Option WriteLimit) :
    (⟨[.folder "d" false]⟩ : ClassPath).closure (desk limit) [⟨"Gone"⟩]
      = .error (.missingRoot ⟨"Gone"⟩) := by
  refine ClassSource.closure_of_lacks_head ?_ []
  rw [ClassPath.lacks_source_iff]
  simp only [List.mem_singleton, forall_eq]
  exact Container.lacksEntry_folder_of_at? (stat_desk limit) (by decide) (by decide) rfl

/-- Such a build comes to what the search for its one root comes to. -/
theorem answer_atDesk (limit : Option WriteLimit) (root path : String) :
    (atDesk limit).answer (buildOf root path)
      = match (⟨[.folder "d" false]⟩ : ClassPath).closure (desk limit) [.ofSpelling root] with
        | .ok names => .ok (.closure names 1 .text (some path))
        | .error fault => .error (.search fault) := by
  have hroots : (atDesk limit).roots .empty ⟨none, none, [root], none, none, some path⟩
      = .ok [.ofSpelling root] := rfl
  have hlocations : Settings.empty.chosenClassPath none (atDesk limit).classPath = .ok ["d"] := rfl
  have hfiles : (atDesk limit).files = desk limit := rfl
  show (atDesk limit).build .empty ⟨none, none, [root], none, none, some path⟩ = _
  simp only [Surroundings.build, hroots, hlocations, hfiles, ofLocations_desk, bind, Except.bind,
    Except.mapError]
  cases ClassPath.closure (desk limit) ⟨[.folder "d" false]⟩ [.ofSpelling root] <;> rfl

/-- The list of the class goes to the path. -/
theorem follow_sound (limit : Option WriteLimit) (path : String) :
    (atDesk limit).follow 0 (buildOf "Sound" path) = Answer.save (desk limit) path "Sound.class\n" := by
  have hroot : ClassName.ofSpelling "Sound" = sound := by decide
  have htext : classList [sound] = "Sound.class\n" := by decide
  rw [Surroundings.follow, answer_atDesk, hroot, closure_desk]
  show Answer.save (desk limit) path (classList [sound]) = _
  rw [htext]

/-- The build fails before anything is saved. -/
theorem follow_gone (limit : Option WriteLimit) (path : String) :
    (atDesk limit).follow 0 (buildOf "Gone" path)
      = ⟨.failed (.search (.missingRoot ⟨"Gone"⟩)), "", desk limit⟩ := by
  have hroot : ClassName.ofSpelling "Gone" = ⟨"Gone"⟩ := by decide
  rw [Surroundings.follow, answer_atDesk, hroot, closure_gone]
  rfl

/-- What the build finds. -/
theorem finds_sound (limit : Option WriteLimit) (path : String) :
    (atDesk limit).Finds (buildOf "Sound" path) [sound] [sound] .text := by
  have hroot : ClassName.ofSpelling "Sound" = sound := by decide
  refine ⟨_, .empty, ["d"], ⟨[.folder "d" false]⟩, rfl, rfl, ?_, rfl, ofLocations_desk limit,
    closure_desk limit, rfl⟩
  rw [← hroot]
  rfl

/-- The room of a disk that takes four bytes more. -/
def fourBytes : WriteLimit := ⟨4, .noSpace⟩

/-- On a disk without room for it, the older list gives way to a first part of the new one. -/
theorem save_list : Answer.save (desk (some fourBytes)) "list" "Sound.class\n"
    = ⟨.failed (.outputFile "list" .noSpace), "",
      (desk (some fourBytes)).put [.ofText "list"] (.ofContent "Soun".toUTF8)⟩ := by
  have hparent : (desk (some fourBytes)).makeParent "list" = ⟨desk (some fourBytes), .ok ()⟩ := by
    rfl
  have hplace : (desk (some fourBytes)).locate .newFile "list"
      = .ok (.taken [.ofText "list"] (.ofContent "old".toUTF8)) :=
    FileSystem.locate_eq_ok_iff.2 ⟨by decide,
      FileSystem.walk_last_of_entry rfl rfl (by decide) (by decide) rfl nofun⟩
  have hwrite : (desk (some fourBytes)).writeFile "list" "Sound.class\n".toUTF8
      = ⟨(desk (some fourBytes)).put [.ofText "list"] (.ofContent "Soun".toUTF8), .error .noSpace⟩ := by
    rw [FileSystem.writeFile, hplace]
    rfl
  simp only [Answer.save, hparent, hwrite]

/-- The device takes all of it. -/
theorem save_null : Answer.save (desk none) "null" "Sound.class\n"
    = ⟨.done, "",
      (desk none).put [.ofText "null"] (.device { taken := "Sound.class\n".toUTF8 })⟩ := by
  have hparent : (desk none).makeParent "null" = ⟨desk none, .ok ()⟩ := by
    rfl
  have hplace : (desk none).locate .newFile "null" = .ok (.taken [.ofText "null"] (.device {})) :=
    FileSystem.locate_eq_ok_iff.2 ⟨by decide,
      FileSystem.walk_last_of_entry rfl rfl (by decide) (by decide) rfl nofun⟩
  have hwrite : (desk none).writeFile "null" "Sound.class\n".toUTF8
      = ⟨(desk none).put [.ofText "null"] (.device { taken := "Sound.class\n".toUTF8 }), .ok ()⟩ := by
    rw [FileSystem.writeFile, hplace]
    rfl
  simp only [Answer.save, hparent, hwrite]

/-- The tree with the folder that was missing. -/
def deskWithOut : FileSystem := (desk none).put [.ofText "out"] (.folder {} [])

/-- A list in a folder that is missing is saved, and the folder is made for it. -/
theorem save_out : Answer.save (desk none) "out/list" "Sound.class\n"
    = ⟨.done, "",
      deskWithOut.put [.ofText "out", .ofText "list"] (.ofContent "Sound.class\n".toUTF8)⟩ := by
  have hvacant : (desk none).locateNames .entry false [.ofText "out"]
      = .ok (.vacant [] (.ofText "out")) :=
    FileSystem.walk_last_of_vacant rfl rfl (by decide) (by decide) rfl
  have hfolder : (desk none).ensureFolder false [.ofText "out"] = ⟨deskWithOut, .ok ()⟩ := by
    rw [FileSystem.ensureFolder, FileSystem.makeFolder, hvacant]
    rfl
  have hparent : (desk none).makeParent "out/list" = ⟨deskWithOut, .ok ()⟩ := by
    show (desk none).makeFolders false [.ofText "out"] = _
    rw [FileSystem.makeFolders, hfolder]
    rfl
  have hplace : deskWithOut.locate .newFile "out/list"
      = .ok (.vacant [.ofText "out"] (.ofText "list")) := by
    refine FileSystem.locate_eq_ok_iff.2 ⟨by decide, ?_⟩
    show FileSystem.walk deskWithOut.root .newFile 40 [] [.ofText "out", .ofText "list"] = _
    rw [FileSystem.walk]
    exact FileSystem.walk_last_of_vacant rfl rfl (by decide) (by decide) rfl
  have hwrite : deskWithOut.writeFile "out/list" "Sound.class\n".toUTF8
      = ⟨deskWithOut.put [.ofText "out", .ofText "list"] (.ofContent "Sound.class\n".toUTF8), .ok ()⟩ := by
    rw [FileSystem.writeFile, hplace]
    rfl
  simp only [Answer.save, hparent, hwrite]

end Sample

namespace Surroundings

open Sample (atDesk buildOf desk fourBytes sound)

/-- Without a root no folder is made for the list. With one, the list is saved. On a disk without
    room for it, its first part is. -/
theorem run_leaves_atDesk :
    ((atDesk none).run 0 ["build", "--root", "Gone", "-o", "out/list"]).ending.status = 1
      ∧ ((atDesk none).run 0 ["build", "--root", "Gone", "-o", "out/list"]).output = ""
      ∧ ((atDesk none).run 0 ["build", "--root", "Gone", "-o", "out/list"]).files = desk none
      ∧ ((atDesk none).run 0 ["build", "--root", "Sound", "-o", "out/list"]).ending.status = 0
      ∧ (desk none).Saves ((atDesk none).run 0 ["build", "--root", "Sound", "-o", "out/list"]).files
        "out/list" "Sound.class\n".toUTF8 := by
  have hgone : CommandLine.parse (CommandLine.withBuild ["build", "--root", "Gone", "-o", "out/list"])
      = .ok (buildOf "Gone" "out/list") := by
    rfl
  have hsound : CommandLine.parse (CommandLine.withBuild ["build", "--root", "Sound", "-o", "out/list"])
      = .ok (buildOf "Sound" "out/list") := by
    rfl
  have hending : ((atDesk none).run 0 ["build", "--root", "Gone", "-o", "out/list"]).ending
      = .failed (.search (.missingRoot ⟨"Gone"⟩)) := by
    rw [run, hgone]
    show (follow _ _ _).ending = _
    rw [Sample.follow_gone]
  have hone : ((atDesk none).run 0 ["build", "--root", "Gone", "-o", "out/list"]).ending.status
      = 1 := by
    rw [hending]
    rfl
  have hzero : ((atDesk none).run 0 ["build", "--root", "Sound", "-o", "out/list"]).ending.status
      = 0 := by
    rw [run, hsound]
    show (follow _ _ _).ending.status = _
    rw [Sample.follow_sound, Sample.save_out]
    rfl
  obtain ⟨houtput, hsame | ⟨_, _, ⟨_, hsave⟩, _⟩⟩ := (run_leaves (atDesk none) 0 hgone).1 hone
  · refine ⟨hone, houtput, hsame, hzero, ?_⟩
    obtain ⟨roots, names, format, hfinds, hsaves⟩ :=
      ((run_leaves (atDesk none) 0 hsound).2 hzero).2 "out/list" rfl
    -- The theorem says that some closure was found. There is only one.
    obtain ⟨rfl, rfl, rfl⟩ := hfinds.unique (Sample.finds_sound none "out/list")
    have htext : OutputFormat.text.render ⟨[sound].length, [sound], 0⟩ = "Sound.class\n" := by decide
    rwa [htext] at hsaves
  · rw [hending] at hsave
    simp at hsave

/-- A run that breaks off has replaced an older list by a first part of the new one, and one that
    succeeds has written to a device that holds nothing. -/
theorem run_leaves_part :
    CommandLine.parse (CommandLine.withBuild ["build", "--root", "Sound", "-o", "list"])
        = .ok (buildOf "Sound" "list")
      ∧ (desk (some fourBytes)).read "list" = .ok "old".toUTF8
      ∧ ((atDesk (some fourBytes)).run 0 ["build", "--root", "Sound", "-o", "list"]).ending.status = 1
      ∧ ((atDesk (some fourBytes)).run 0 ["build", "--root", "Sound", "-o", "list"]).files.read "list"
        = .ok "Soun".toUTF8
      ∧ CommandLine.parse (CommandLine.withBuild ["build", "--root", "Sound", "-o", "null"])
        = .ok (buildOf "Sound" "null")
      ∧ ((atDesk none).run 0 ["build", "--root", "Sound", "-o", "null"]).ending.status = 0
      ∧ ((atDesk none).run 0 ["build", "--root", "Sound", "-o", "null"]).files.read "null"
        = .ok .empty := by
  have hlist : CommandLine.parse (CommandLine.withBuild ["build", "--root", "Sound", "-o", "list"])
      = .ok (buildOf "Sound" "list") := by
    rfl
  have hnull : CommandLine.parse (CommandLine.withBuild ["build", "--root", "Sound", "-o", "null"])
      = .ok (buildOf "Sound" "null") := by
    rfl
  have hpart : (atDesk (some fourBytes)).run 0 ["build", "--root", "Sound", "-o", "list"]
      = Answer.save (desk (some fourBytes)) "list" "Sound.class\n" := by
    rw [run, hlist]
    exact Sample.follow_sound _ _
  have hdevice : (atDesk none).run 0 ["build", "--root", "Sound", "-o", "null"]
      = Answer.save (desk none) "null" "Sound.class\n" := by
    rw [run, hnull]
    exact Sample.follow_sound _ _
  rw [hpart, hdevice, Sample.save_list, Sample.save_null]
  refine ⟨hlist, ?_, rfl, ?_, hnull, rfl, ?_⟩
  · have hs : (desk (some fourBytes)).stat "list" = .ok (.ofContent "old".toUTF8) :=
      FileSystem.stat_of_at? (by decide) (by decide) rfl rfl nofun (by decide) (by decide)
    rw [FileSystem.read, hs]
    rfl
  · have hs : ((desk (some fourBytes)).put [.ofText "list"] (.ofContent "Soun".toUTF8)).stat "list"
        = .ok (.ofContent "Soun".toUTF8) :=
      FileSystem.stat_of_at? (by decide) (by decide) rfl rfl nofun (by decide) (by decide)
    rw [FileSystem.read, hs]
    rfl
  · have hs : ((desk none).put [.ofText "null"] (.device { taken := "Sound.class\n".toUTF8 })).stat
        "null" = .ok (.device { taken := "Sound.class\n".toUTF8 }) :=
      FileSystem.stat_of_at? (by decide) (by decide) rfl rfl nofun (by decide) (by decide)
    rw [FileSystem.read, hs]
    rfl

end Surroundings

end PrimaryDex
