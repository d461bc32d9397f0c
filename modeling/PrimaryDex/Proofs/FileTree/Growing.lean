import PrimaryDex.FileTree.Change
import PrimaryDex.Proofs.FileTree.Following

namespace PrimaryDex

/-!
# File trees that grow

Adding to a file tree does not disturb what stands in it, and paths lead where they led before.

* `Node.shell` — what stands at a place, apart from what is below it;
* `Node.shell_at?_put` — putting a node without entries in a place changes no other place;
* `Node.GrowsTo` — nothing gets lost, except that a file or a device may hold something else;
* `FileSystem.walk_of_growsTo`, `walk_of_vacant` — a path leads where it led before, and to the node
  that fills a vacant place at its end.
-/

namespace Node

/-! ### Places -/

/-- A node without what is below it. -/
def shell : Node → Node
  | folder access _ => folder access []
  | n => n

/-- What a node is and refuses, and where it leads to if it is a link, but not what it holds. -/
def kind : Node → Node
  | file access _ => file access .empty
  | folder access _ => folder access []
  | device d => device { d with taken := .empty }
  | link target => link target

/-- What is below a node does not belong to its kind. -/
@[simp] theorem kind_shell (n : Node) : n.shell.kind = n.kind := by
  cases n <;> rfl

/-- The kind of a folder is a folder's alone. -/
theorem kind_eq_folder_iff {n : Node} {access : FolderAccess} :
    n.kind = folder access [] ↔ ∃ es, n = folder access es := by
  cases n <;> simp [kind]

/-- The kind of a link tells where it leads. -/
theorem kind_eq_link_iff {n : Node} {target : Route} :
    n.kind = link target ↔ n = link target := by
  cases n <;> simp [kind]

/-- What is no link is none either when it holds something else. -/
theorem ne_link_of_kind {n m : Node} (h : m.kind = n.kind) (hn : ∀ target, n ≠ link target)
    (target : Route) : m ≠ link target := by
  rintro rfl
  exact hn target (kind_eq_link_iff.1 h.symm)

variable {n m node : Node} {access : FolderAccess} {es : List (FileName × Node)}
  {name other : FileName}
  {names front others : List FileName}

/-- A name leads to what was put under it. -/
theorem lookup_setEntry_self : (setEntry name node es).lookup name = some node := by
  induction es with
  | nil => simp [setEntry]
  | cons e es ih =>
    obtain ⟨k, child⟩ := e
    by_cases hk : k = name
    · simp [setEntry, hk]
    · simp only [setEntry, if_neg hk, List.lookup_cons]
      rw [beq_eq_false_iff_ne.2 (Ne.symm hk)]
      exact ih

theorem lookup_setEntry_of_ne (h : other ≠ name) :
    (setEntry name node es).lookup other = es.lookup other := by
  induction es with
  | nil => simp [setEntry, h]
  | cons e es ih =>
    obtain ⟨k, child⟩ := e
    by_cases hk : k = name
    · subst hk
      simp [setEntry, List.lookup_cons, beq_eq_false_iff_ne.2 h]
    · simp only [setEntry, if_neg hk, List.lookup_cons]
      rw [ih]

/-- The first name leads to an entry, and the others on from there. -/
theorem at?_cons_folder : (folder access es).at? (name :: names) = (es.lookup name).bind (·.at? names) := by
  rw [at?, entries]
  cases es.lookup name <;> rfl

/-- One name more leads to an entry of the folder. -/
theorem at?_append_singleton (h : n.at? front = some (folder access es)) :
    n.at? (front ++ [name]) = es.lookup name := by
  rw [at?_append, h, Option.bind_some, at?_cons_folder]
  cases es.lookup name <;> rfl

/-- On the way to something there are folders only. -/
theorem exists_folder_of_at? (h : n.at? (front ++ name :: others) = some m) :
    ∃ access es, n.at? front = some (folder access es) := by
  rw [at?_append, Option.bind_eq_some_iff] at h
  obtain ⟨k, hk, hm⟩ := h
  obtain ⟨access, es, rfl, -⟩ := exists_of_at?_cons hm
  exact ⟨access, es, hk⟩

/-- Above a folder there are folders only. -/
theorem exists_folder_of_prefix (h : n.at? names = some (folder access es)) (hf : front <+: names) :
    ∃ access es, n.at? front = some (folder access es) := by
  obtain ⟨rest, rfl⟩ := hf
  cases rest with
  | nil => exact ⟨access, es, by rwa [List.append_nil] at h⟩
  | cons x rest => exact exists_folder_of_at? h

/-! ### Putting a node in its place -/

/-- What is put in a place stands there. -/
theorem at?_put_self (node : Node) (names : List FileName) (n : Node) :
    (put node names n).at? names = some node := by
  induction names generalizing n with
  | nil => rfl
  | cons name names ih =>
    rw [put, at?_cons_folder, lookup_setEntry_self, Option.bind_some]
    exact ih _

/-- Nothing stands below a node without entries. -/
theorem at?_eq_none_of_entries (hm : m.entries = []) (hn : names ≠ []) : m.at? names = none := by
  obtain ⟨x, xs, rfl⟩ := List.exists_cons_of_ne_nil hn
  rw [at?, hm]
  rfl

/-- Putting a node without entries where no folder stands, at the end of a way of folders, changes no
    other place. -/
theorem shell_at?_put (hnode : node.entries = [])
    (hway : ∀ front name rest, names = front ++ name :: rest →
      ∃ access es, n.at? front = some (folder access es))
    (hold : ∀ m, n.at? names = some m → m.entries = []) (hne : others ≠ names) :
    ((put node names n).at? others).map shell = (n.at? others).map shell := by
  induction names generalizing n others with
  | nil =>
    rw [put, at?_eq_none_of_entries hnode hne, at?_eq_none_of_entries (hold n rfl) hne]
  | cons name names ih =>
    obtain ⟨access, es, hes⟩ := hway [] name names rfl
    obtain rfl : n = folder access es := Option.some.inj hes
    cases others with
    | nil => rfl
    | cons x xs =>
      rw [put, at?_cons_folder, at?_cons_folder, entries]
      -- The two ways part at some name, or one goes on where the other ends.
      by_cases hx : x = name
      · subst hx
        have hxs : xs ≠ names := fun h => hne (h ▸ rfl)
        rw [lookup_setEntry_self, Option.bind_some]
        cases hl : es.lookup x with
        | none =>
          -- Nothing stood at the place, so it is the end of the way.
          have hnames : names = [] := by
            cases names with
            | nil => rfl
            | cons y ys =>
              obtain ⟨access', es', hes'⟩ := hway [x] y ys rfl
              simp [at?_cons_folder, hl] at hes'
          subst hnames
          rw [put, at?_eq_none_of_entries hnode hxs]
          rfl
        | some child =>
          refine ih (n := child) ?_ ?_ hxs
          · intro front k rest hnames
            obtain ⟨access', es', hes'⟩ := hway (x :: front) k rest (by rw [hnames]; rfl)
            exact ⟨access', es', by simpa [at?_cons_folder, hl] using hes'⟩
          · intro m hm
            exact hold m (by simpa [at?_cons_folder, hl] using hm)
      · rw [lookup_setEntry_of_ne hx]

/-- Filling a vacant place changes no other one. -/
theorem shell_at?_put_of_vacant (hnode : node.entries = []) (hf : n.at? front = some (folder access es))
    (hl : es.lookup name = none) (hne : others ≠ front ++ [name]) :
    ((put node (front ++ [name]) n).at? others).map shell = (n.at? others).map shell := by
  refine shell_at?_put hnode (fun start x rest hnames => ?_) (fun m hm => ?_) hne
  · -- A shorter way leads to the folder or to one above it.
    refine exists_folder_of_prefix hf ?_
    have hlen := congrArg List.length hnames
    simp only [List.length_append, List.length_cons, List.length_nil] at hlen
    exact List.prefix_of_prefix_length_le (hnames ▸ List.prefix_append start (x :: rest))
      (List.prefix_append front [name]) (by omega)
  · rw [at?_append_singleton hf, hl] at hm
    simp at hm

/-- Replacing a node without entries changes no other place. -/
theorem shell_at?_put_of_at? (hnode : node.entries = []) (hm : n.at? names = some m)
    (hentries : m.entries = []) (hne : others ≠ names) :
    ((put node names n).at? others).map shell = (n.at? others).map shell := by
  refine shell_at?_put hnode (fun front x rest hnames => ?_) (fun k hk => ?_) hne
  · exact exists_folder_of_at? (hnames ▸ hm)
  · obtain rfl := Option.some.inj (hm.symm.trans hk)
    exact hentries

/-! ### Growth -/

/-- Whatever stands in a tree stands in the other one too, but a file or a device may hold something
    else. -/
def GrowsTo (n m : Node) : Prop :=
  ∀ names k, n.at? names = some k → ∃ k', m.at? names = some k' ∧ k'.kind = k.kind

/-- A tree that stays as it is loses nothing. -/
theorem GrowsTo.refl (n : Node) : n.GrowsTo n := fun _ k hk => ⟨k, hk, rfl⟩

/-- A tree grows if each place keeps what stands in it, was vacant, or holds something of the same kind
    still. -/
theorem growsTo_of_shell (h : ∀ names, (m.at? names).map shell = (n.at? names).map shell
      ∨ n.at? names = none
      ∨ ∃ old new, n.at? names = some old ∧ m.at? names = some new ∧ new.kind = old.kind) :
    n.GrowsTo m := by
  intro names k hk
  rcases h names with hsame | hnone | ⟨old, new, hold, hnew, hkind⟩
  · rw [hk, Option.map_some, Option.map_eq_some_iff] at hsame
    obtain ⟨k', hk', hshell⟩ := hsame
    refine ⟨k', hk', ?_⟩
    rw [← kind_shell, hshell, kind_shell]
  · simp [hk] at hnone
  · obtain rfl := Option.some.inj (hk.symm.trans hold)
    exact ⟨new, hnew, hkind⟩

end Node

namespace FileSystem

variable {root root' n m : Node} {purpose : Purpose} {links : Nat}
  {here found names folder : List FileName} {name : FileName} {access : FolderAccess}
  {es es' : List (FileName × Node)}

/-- A folder stays a folder that refuses the same. -/
theorem exists_folder_of_growsTo (hg : root.GrowsTo root')
    (h : root.at? here = some (.folder access es)) :
    ∃ es', root'.at? here = some (.folder access es') := by
  obtain ⟨n, hn, hkind⟩ := hg here _ h
  obtain ⟨es', rfl⟩ := Node.kind_eq_folder_iff.1 hkind
  exact ⟨es', hn⟩

/-- An entry of a folder is one of the grown folder. -/
theorem exists_lookup_of_growsTo (hg : root.GrowsTo root')
    (h : root.at? here = some (.folder access es)) (h' : root'.at? here = some (.folder access es'))
    (hl : es.lookup name = some n) : ∃ n', es'.lookup name = some n' ∧ n'.kind = n.kind := by
  rw [← Node.at?_append_singleton h']
  exact hg _ n ((Node.at?_append_singleton h).trans hl)

/-- Where the last names of a path are looked up, and which these are. -/
def Place.lastStretch : Place → List FileName × List FileName
  | taken names _ => (names, [])
  | vacant folder name => (folder, [name])

/-- In the grown tree, a path comes to its last stretch as before, unless it ends at a link that is not
    followed. -/
theorem exists_walk_of_growsTo (hg : root.GrowsTo root') {place : Place}
    (hplace : ∀ found target, place ≠ .taken found (.link target))
    (h : walk root purpose links here names = .ok place) :
    ∃ links', walk root' .target links here names
      = walk root' .target links' place.lastStretch.1 place.lastStretch.2 := by
  -- Step by step the two walks stand in the same folder, as each folder has grown and each link is
  -- the same.
  fun_induction walk root purpose links here names with
  | case1 links here k hk =>
    obtain rfl := Except.ok.inj h
    exact ⟨links, rfl⟩
  | case3 links here rest access es hes ih =>
    obtain ⟨es', hes'⟩ := exists_folder_of_growsTo hg hes
    rw [walk_cons_of_empty hes']
    exact ih h
  | case5 links here rest access es hes hs _ ih =>
    obtain ⟨es', hes'⟩ := exists_folder_of_growsTo hg hes
    rw [walk_cons_of_dot hes' hs]
    exact ih h
  | case6 links here rest access es hes hs _ _ ih =>
    obtain ⟨es', hes'⟩ := exists_folder_of_growsTo hg hes
    rw [walk_cons_of_up hes' hs]
    exact ih h
  | case9 links here name rest access es hes hne hs hdot hup _ hsize hlook hrest =>
    obtain rfl := Except.ok.inj h
    exact ⟨links, by rw [List.isEmpty_iff.1 hrest]; rfl⟩
  | case11 =>
    obtain rfl := Except.ok.inj h
    exact absurd rfl (hplace _ _)
  | case13 here name rest access es hes hne hs hdot hup _ hsize target hlook _ links ih =>
    obtain ⟨es', hes'⟩ := exists_folder_of_growsTo hg hes
    obtain ⟨k', hk', hkind⟩ := exists_lookup_of_growsTo hg hes hes' hlook
    obtain rfl := Node.kind_eq_link_iff.1 hkind
    rw [walk_cons_of_link hes' hs (goesDown_iff.2 ⟨hne, hdot, hup⟩) (Nat.not_lt.1 hsize) hk']
    exact ih h
  | case14 links here name rest access es hes hne hs hdot hup _ hsize child hlink hlook ih =>
    obtain ⟨es', hes'⟩ := exists_folder_of_growsTo hg hes
    obtain ⟨k', hk', hkind⟩ := exists_lookup_of_growsTo hg hes hes' hlook
    rw [walk_cons_of_entry hes' hs (goesDown_iff.2 ⟨hne, hdot, hup⟩) (Nat.not_lt.1 hsize) hk'
      (Node.ne_link_of_kind hkind hlink)]
    exact ih h
  | _ => simp at h

/-- A path leads where it led before. -/
theorem walk_of_growsTo (hg : root.GrowsTo root') (hn : ∀ target, n ≠ .link target)
    (h : walk root purpose links here names = .ok (.taken found n)) :
    ∃ n', walk root' .target links here names = .ok (.taken found n') ∧ n'.kind = n.kind := by
  have hplace : ∀ found' target, Place.taken found n ≠ .taken found' (.link target) := by
    intro found' target he
    exact hn target (Place.taken.inj he).2
  obtain ⟨links', hwalk⟩ := exists_walk_of_growsTo hg hplace h
  obtain ⟨n', hn', hkind⟩ := hg found n (at?_of_walk h)
  refine ⟨n', hwalk.trans ?_, hkind⟩
  show walk root' .target links' found [] = _
  rw [walk, hn']

/-- A vacant place is in a folder that is there and can be searched, under a name that an entry can have
    in a path. -/
theorem exists_folder_of_vacant
    (h : walk root purpose links here names = .ok (.vacant folder name)) :
    (∃ access es, root.at? folder = some (.folder access es) ∧ access.toSearch = none
        ∧ es.lookup name = none)
      ∧ goesDown name = true ∧ name.size ≤ maxName := by
  fun_induction walk root purpose links here names with
  | case3 _ _ _ _ _ _ ih => exact ih h
  | case5 _ _ _ _ _ _ _ _ ih => exact ih h
  | case6 _ _ _ _ _ _ _ _ _ ih => exact ih h
  | case9 links here k rest access es hes hne hs hdot hup _ hsize hlook hrest =>
    obtain ⟨rfl, rfl⟩ := Place.vacant.inj (Except.ok.inj h)
    exact ⟨⟨access, es, hes, hs, hlook⟩, goesDown_iff.2 ⟨hne, hdot, hup⟩, Nat.not_lt.1 hsize⟩
  | case13 _ _ _ _ _ _ _ _ _ _ _ _ _ _ _ _ ih => exact ih h
  | case14 _ _ _ _ _ _ _ _ _ _ _ _ _ _ _ _ ih => exact ih h
  | _ => simp at h

/-- A path that led to a vacant place leads to what has filled it. -/
theorem walk_of_vacant (hg : root.GrowsTo root')
    (h : walk root purpose links here names = .ok (.vacant folder name))
    (hn : root'.at? (folder ++ [name]) = some n) (hlink : ∀ target, n ≠ .link target) :
    walk root' .target links here names = .ok (.taken (folder ++ [name]) n) := by
  obtain ⟨⟨access, es, hes, hs, -⟩, hdown, hsize⟩ := exists_folder_of_vacant h
  obtain ⟨es', hes'⟩ := exists_folder_of_growsTo hg hes
  obtain ⟨links', hwalk⟩ := exists_walk_of_growsTo hg (by simp) h
  have hl : es'.lookup name = some n := (Node.at?_append_singleton hes').symm.trans hn
  rw [hwalk]
  show walk root' .target links' folder [name] = _
  rw [walk_cons_of_entry hes' hs hdown hsize hl hlink, walk, hn]

end FileSystem

end PrimaryDex
