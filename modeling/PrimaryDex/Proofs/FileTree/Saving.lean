import PrimaryDex.Proofs.FileTree.Growing

namespace PrimaryDex.FileSystem

/-!
# What is saved, and what is made for it

Saving a file makes the folders that are missing on the way to it, and changes nothing else.

* `FileSystem.Makes` — at most some missing folders on the way of some names are added;
* `makes_makeFolders`, `makesParents_makeParent` — that much is done by making a folder with those
  above it;
* `FileSystem.Saves` — besides, some bytes were written to a path: `Takes` says what stands there then;
* `writeFile_cases` — writing is refused, or it changes one place;
* `saves_writeFile` — what writing a file does after its parent was made, if it breaks off as well.
-/

variable {fs before mid after : FileSystem} {absolute : Bool} {names more place : List FileName}
  {path : String} {bytes content : ByteArray}

/-- What stands at a place, apart from what is below it. -/
def shellAt? (fs : FileSystem) (place : List FileName) : Option Node :=
  (fs.root.at? place).map Node.shell

/-- A vacant place that is as before was vacant before. -/
theorem at?_eq_none_of_shellAt?_eq (h : after.shellAt? place = before.shellAt? place)
    (hn : after.root.at? place = none) : before.root.at? place = none := by
  have hshell : before.shellAt? place = none := by rw [← h, shellAt?, hn]; rfl
  simpa [shellAt?] using hshell

/-! ### Missing folders -/

/-- A folder that was missing stands at a place, to which some of the names lead, from the first one
    on. -/
structure IsMade (before after : FileSystem) (absolute : Bool) (names place : List FileName) :
    Prop where
  missing : before.root.at? place = none
  made : ∃ es, after.root.at? place = some (.folder {} es)
  onTheWay : ∃ front ≠ [], front <+: names
    ∧ ∃ n, after.locateNames .target absolute front = .ok (.taken place n)

/-- Every place is as it was, or a folder that was missing on the way of some names. -/
structure Makes (before after : FileSystem) (absolute : Bool) (names : List FileName) : Prop where
  working : after.working = before.working
  limit : after.limit = before.limit
  place : ∀ place, after.shellAt? place = before.shellAt? place
    ∨ IsMade before after absolute names place

/-- Making nothing is a way to make folders. -/
theorem Makes.refl (fs : FileSystem) (absolute : Bool) (names : List FileName) :
    fs.Makes fs absolute names :=
  ⟨rfl, rfl, fun _ => .inl rfl⟩

/-- Where folders are made, the tree grows. -/
theorem Makes.growsTo (h : before.Makes after absolute names) :
    before.root.GrowsTo after.root :=
  Node.growsTo_of_shell fun place => (h.place place).imp id fun hmade => .inl hmade.missing

/-- The folder stays on the way while the tree grows elsewhere. -/
theorem IsMade.of_growsTo (h : IsMade before mid absolute names place)
    (hg : mid.root.GrowsTo after.root) (hw : after.working = mid.working)
    (hn : names <+: more) : IsMade before after absolute more place := by
  obtain ⟨es, hes⟩ := h.made
  obtain ⟨front, hne, hfront, n, hleads⟩ := h.onTheWay
  obtain rfl : n = .folder {} es := Option.some.inj ((at?_of_walk hleads).symm.trans hes)
  obtain ⟨n', hleads', -⟩ := walk_of_growsTo hg (by simp) hleads
  refine ⟨h.missing, exists_folder_of_growsTo hg hes, front, hne, hfront.trans hn, n', ?_⟩
  rw [locateNames, hw]
  exact hleads'

/-- What is made on the way of more names, after some were made already, is made on their way. -/
theorem Makes.trans (h : before.Makes mid absolute names) (h' : mid.Makes after absolute more)
    (hn : names <+: more) : before.Makes after absolute more := by
  -- Each place is looked at after the second step, and if that left it alone after the first one.
  refine ⟨h'.working.trans h.working, h'.limit.trans h.limit, fun place => ?_⟩
  rcases h'.place place with hsame' | hmade'
  · rcases h.place place with hsame | hmade
    · exact .inl (hsame'.trans hsame)
    · exact .inr (hmade.of_growsTo h'.growsTo h'.working hn)
  · -- The folder is new, thus it was missing at first, too.
    refine .inr ⟨?_, hmade'.made, hmade'.onTheWay⟩
    rcases h.place place with hsame | hmade
    · exact at?_eq_none_of_shellAt?_eq hsame hmade'.missing
    · obtain ⟨es, hes⟩ := hmade.made
      have hnone := hmade'.missing
      simp [hes] at hnone

/-! ### Filling a place -/

/-- A node without entries that is put in a vacant place changes no other one. -/
theorem growsTo_put_of_vacant (node : Node) {folder : List FileName} {name : FileName}
    {purpose : Purpose} (hnode : node.entries = [])
    (h : fs.locateNames purpose absolute names = .ok (.vacant folder name)) :
    fs.root.at? (folder ++ [name]) = none
      ∧ (∀ other ≠ folder ++ [name],
        (fs.put (folder ++ [name]) node).shellAt? other = fs.shellAt? other)
      ∧ fs.root.GrowsTo (fs.put (folder ++ [name]) node).root := by
  obtain ⟨⟨access, es, hes, -, hl⟩, -⟩ := exists_folder_of_vacant h
  have hnone : fs.root.at? (folder ++ [name]) = none := by
    rw [Node.at?_append_singleton hes, hl]
  have hsame : ∀ other ≠ folder ++ [name],
      (fs.put (folder ++ [name]) node).shellAt? other = fs.shellAt? other :=
    fun other hne => Node.shell_at?_put_of_vacant hnode hes hl hne
  refine ⟨hnone, hsame, Node.growsTo_of_shell fun other => ?_⟩
  by_cases hne : other = folder ++ [name]
  · exact .inr (.inl (hne ▸ hnone))
  · exact .inl (hsame other hne)

/-- One of the same kind, without entries, that takes the place of a node changes no other place. -/
theorem growsTo_put_of_kind {old node : Node} (h : fs.root.at? place = some old)
    (hold : old.entries = []) (hnode : node.entries = []) (hkind : node.kind = old.kind) :
    (∀ other ≠ place, (fs.put place node).shellAt? other = fs.shellAt? other)
      ∧ fs.root.GrowsTo (fs.put place node).root := by
  have hsame : ∀ other ≠ place, (fs.put place node).shellAt? other = fs.shellAt? other :=
    fun other hne => Node.shell_at?_put_of_at? hnode h hold hne
  refine ⟨hsame, Node.growsTo_of_shell fun other => ?_⟩
  by_cases hne : other = place
  · subst hne
    exact .inr (.inr ⟨old, node, h, Node.at?_put_self _ _ _, hkind⟩)
  · exact .inl (hsame other hne)

/-- Making one folder adds it where it was missing, if it is made at all. -/
theorem makes_makeFolder (fs : FileSystem) (absolute : Bool) (names : List FileName) :
    fs.Makes (fs.makeFolder absolute names).after absolute names := by
  unfold makeFolder
  split
  · rename_i folder name h
    split
    · exact .refl ..
    · obtain ⟨hnone, hsame, hg⟩ := growsTo_put_of_vacant (.folder {} []) rfl h
      refine ⟨rfl, rfl, fun place => ?_⟩
      -- The place of the new folder is the only one that changes.
      by_cases hplace : place = folder ++ [name]
      · subst hplace
        have hput : (fs.put (folder ++ [name]) (.folder {} [])).root.at? (folder ++ [name])
            = some (.folder {} []) := Node.at?_put_self _ _ _
        have hne : names ≠ [] := by
          rintro rfl
          rw [locateNames, walk] at h
          split at h <;> simp at h
        exact .inr ⟨hnone, ⟨[], hput⟩, names, hne, List.prefix_refl _, _,
          walk_of_vacant hg h hput (by simp)⟩
      · exact .inl (hsame place hplace)
  · exact .refl ..
  · exact .refl ..

theorem makes_ensureFolder (fs : FileSystem) (absolute : Bool) (names : List FileName) :
    fs.Makes (fs.ensureFolder absolute names).after absolute names := by
  have hmake := makes_makeFolder fs absolute names
  unfold ensureFolder
  split
  · rename_i after h
    rwa [h] at hmake
  · split <;> exact .refl ..

/-- **Making folders.** Whether a folder can be made or not, the places on the way to it are the only
    ones that change, from nothing to a folder. -/
theorem makes_makeFolders (fs : FileSystem) (absolute : Bool) (names : List FileName) :
    fs.Makes (fs.makeFolders absolute names).after absolute names := by
  fun_induction makeFolders fs absolute names with
  | case1 => exact .refl ..
  | case2 names hne _ _ _ after hfolders ih =>
    rw [hfolders] at ih
    exact ih.trans (makes_ensureFolder after absolute names) (List.dropLast_prefix names)
  | case3 names hne _ _ _ after cause hfolders ih =>
    rw [hfolders] at ih
    exact ih.trans (.refl ..) (List.dropLast_prefix names)
  | case4 names hne => exact makes_ensureFolder _ absolute names

/-- The names of the folder in which a path has its last name. -/
def parentNames (path : String) : List FileName :=
  ((pathNames (parentPath path)).filter (!isIdleName ·)).map FileName.ofText

/-- Every place is as it was, or a folder that was missing on the way to the parent of a path. -/
def MakesParents (before after : FileSystem) (path : String) : Prop :=
  Makes before after (isAbsolutePath (parentPath path)) (parentNames path)

/-- The parent of a path is made with all folders above it. -/
theorem makesParents_makeParent (fs : FileSystem) (path : String) :
    fs.MakesParents (fs.makeParent path).after path := by
  simp only [makeParent]
  split
  · exact .refl ..
  · split
    · exact .refl ..
    · exact makes_makeFolders ..

/-! ### Writing -/

/-- What stands where some bytes were written, behind what stood there: a file holds these bytes alone,
    and a device has taken them behind all others. -/
inductive Takes (bytes : ByteArray) : Option Node → Node → Prop
  | newFile : Takes bytes none (.file {} bytes)
  | file (access : FileAccess) (old : ByteArray) :
      Takes bytes (some (.file access old)) (.file access bytes)
  | device (d : Device) :
      Takes bytes (some (.device d)) (.device { d with taken := d.taken ++ bytes })

/-- Putting a node at a place writes some bytes there: the path leads to the node, which has taken
    them, and no other place changes. -/
structure Fills (fs : FileSystem) (path : String) (place : List FileName) (node : Node)
    (bytes : ByteArray) : Prop where
  takes : Takes bytes (fs.root.at? place) node
  leads : (fs.put place node).locate .target path = .ok (.taken place node)
  same : ∀ other ≠ place, (fs.put place node).shellAt? other = fs.shellAt? other
  grows : fs.root.GrowsTo (fs.put place node).root

/-- A new file fills the place that was found for it. -/
theorem fills_of_vacant {folder : List FileName} {name : FileName}
    (h : fs.locate .newFile path = .ok (.vacant folder name)) (bytes : ByteArray) :
    fs.Fills path (folder ++ [name]) (.file {} bytes) bytes := by
  obtain ⟨hr, hwalk⟩ := locate_eq_ok_iff.1 h
  obtain ⟨hnone, hsame, hg⟩ := growsTo_put_of_vacant (.file {} bytes) rfl hwalk
  refine ⟨hnone ▸ .newFile, locate_eq_ok_iff.2 ⟨hr, ?_⟩, hsame, hg⟩
  exact walk_of_vacant hg hwalk (Node.at?_put_self _ _ _) (by simp)

/-- A node that takes the place of one of its kind is found where that was found. -/
theorem fills_of_kind {old node : Node} (h : fs.locate .newFile path = .ok (.taken place old))
    (hold : old.entries = []) (hnode : node.entries = []) (hkind : node.kind = old.kind)
    (hlink : ∀ target, old ≠ .link target) (htakes : Takes bytes (some old) node) :
    fs.Fills path place node bytes := by
  obtain ⟨hr, hwalk⟩ := locate_eq_ok_iff.1 h
  have hat := at?_of_walk hwalk
  obtain ⟨hsame, hg⟩ := growsTo_put_of_kind hat hold hnode hkind
  -- The path leads to the same place, and there stands what was put in it.
  obtain ⟨n', hleads, -⟩ := walk_of_growsTo hg hlink hwalk
  have hn' : n' = node :=
    Option.some.inj ((at?_of_walk hleads).symm.trans (Node.at?_put_self _ _ _))
  exact ⟨hat ▸ htakes, locate_eq_ok_iff.2 ⟨hr, hn' ▸ hleads⟩, hsame, hg⟩

/-- **What writing a file can do.** It is refused and changes nothing, or it fills one place with as much
    as is taken. -/
theorem writeFile_cases (fs : FileSystem) (path : String) (content : ByteArray) :
    (∃ cause, fs.writeFile path content = fs.refuse cause)
      ∨ ∃ place node, fs.writeFile path content = fs.writeAt place node content
        ∧ ∀ bytes, fs.Fills path place (node bytes) bytes := by
  -- In each case where something is written, what is put at the place is of the kind that was
  -- there.
  unfold writeFile
  split
  · rename_i folder name hloc
    split
    · exact .inl ⟨_, rfl⟩
    · exact .inr ⟨_, _, rfl, fills_of_vacant hloc⟩
  · rename_i place access old hloc
    split
    · exact .inl ⟨_, rfl⟩
    · exact .inr ⟨_, _, rfl, fun bytes =>
        fills_of_kind hloc rfl rfl rfl (by simp) (.file access old)⟩
  · rename_i place d hloc
    split
    · exact .inl ⟨_, rfl⟩
    · exact .inr ⟨_, _, rfl, fun bytes => fills_of_kind hloc rfl rfl rfl (by simp) (.device d)⟩
  · exact .inl ⟨_, rfl⟩
  · exact .inl ⟨_, rfl⟩
  · exact .inl ⟨_, rfl⟩

/-- All bytes are taken, or those for which there is room. -/
theorem accept_cases (fs : FileSystem) (content : ByteArray) :
    fs.accept content = (content, .ok ())
      ∨ ∃ limit, fs.limit = some limit ∧ limit.room < content.size
        ∧ fs.accept content = (content.extract 0 limit.room, .error limit.cause) := by
  unfold accept
  cases hlimit : fs.limit with
  | none => exact .inl rfl
  | some limit =>
    dsimp only
    -- With a limit it depends on the room that is left.
    by_cases hsize : content.size ≤ limit.room
    · exact .inl (if_pos hsize)
    · exact .inr ⟨limit, rfl, Nat.not_le.1 hsize, if_neg hsize⟩

/-! ### Saving -/

/-- Some bytes were written where the path leads, and every other place is as it was, or a folder that
    was missing on the way to the parent of the path. -/
structure Saves (before after : FileSystem) (path : String) (bytes : ByteArray) : Prop where
  working : after.working = before.working
  place : ∃ place n, after.locate .target path = .ok (.taken place n)
    ∧ Takes bytes (before.root.at? place) n
    ∧ ∀ other ≠ place, after.shellAt? other = before.shellAt? other
      ∨ IsMade before after (isAbsolutePath (parentPath path)) (parentNames path) other

/-- A place that was not a folder is as it was before the parents were made. -/
theorem Takes.of_makes {n : Node} (h : before.Makes mid absolute names)
    (ht : Takes bytes (mid.root.at? place) n) : Takes bytes (before.root.at? place) n := by
  rcases h.place place with hsame | hmade
  · -- What takes bytes has nothing below it.
    simp only [shellAt?] at hsame
    generalize mid.root.at? place = old at ht hsame
    have hold : before.root.at? place = old := by
      cases ht <;> cases hb : before.root.at? place with
        | none => simp_all
        | some m => cases m <;> simp_all [Node.shell]
    exact hold ▸ ht
  · obtain ⟨es, hes⟩ := hmade.made
    rw [hes] at ht
    cases ht

/-- After the parent was made, what fills a place is all that is added. -/
theorem Saves.of_fills {node : Node} (h : before.MakesParents mid path)
    (hf : mid.Fills path place node bytes) : before.Saves (mid.put place node) path bytes := by
  refine ⟨h.working, place, node, hf.leads, hf.takes.of_makes h, fun other hne => ?_⟩
  rw [hf.same other hne]
  exact (h.place other).imp id fun hmade => hmade.of_growsTo hf.grows rfl (List.prefix_refl _)

/-- **Writing a file** whose parent was made. If it goes through, the content is saved. Otherwise nothing
    changes, or writing has broken off for want of room, and a first part of the content is saved. -/
theorem saves_writeFile (h : before.MakesParents mid path) (content : ByteArray) :
    ((mid.writeFile path content).result = .ok () →
        before.Saves (mid.writeFile path content).after path content)
      ∧ ∀ cause, (mid.writeFile path content).result = .error cause →
        (mid.writeFile path content).after = mid
          ∨ ∃ room, before.limit = some ⟨room, cause⟩ ∧ room < content.size
            ∧ before.Saves (mid.writeFile path content).after path (content.extract 0 room) := by
  rcases writeFile_cases mid path content with ⟨cause, hrefuse⟩ | ⟨place, node, hwrite, hfills⟩
  · rw [hrefuse]
    exact ⟨by simp [refuse], fun _ _ => .inl rfl⟩
  · rw [hwrite, writeAt]
    rcases accept_cases mid content with hall | ⟨limit, hlimit, hsize, hpart⟩
    · rw [hall]
      exact ⟨fun _ => .of_fills h (hfills content), by simp⟩
    · rw [hpart]
      refine ⟨by simp, fun cause hcause => .inr ⟨limit.room, ?_, hsize, ?_⟩⟩
      · rw [← h.limit, hlimit, ← Except.error.inj hcause]
      · exact .of_fills h (hfills _)

end PrimaryDex.FileSystem
