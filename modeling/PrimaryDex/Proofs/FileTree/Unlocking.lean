import PrimaryDex.Proofs.FileTree.Following

namespace PrimaryDex

/-!
# File trees without locks

What is at a path does not depend on who asks. To say what that is, all folders are unlocked, which takes
nothing away.

* `Node.unlock` — the same tree, of which every folder can be used in every way;
* `Node.at?_unlock` — the same nodes stand in it at the same names;
* `FileSystem.walk_unlock` — a path that can be followed leads to the same place in it.
-/

namespace Node

mutual

/-- The tree with folders that refuse nothing. Files keep what they refuse. -/
def unlock : Node → Node
  | folder _ es => folder {} (unlockEntries es)
  | n => n

/-- Some entries with the trees below them unlocked. -/
def unlockEntries : List (FileName × Node) → List (FileName × Node)
  | [] => []
  | (name, n) :: es => (name, n.unlock) :: unlockEntries es

end

variable {n : Node} {names : List FileName}

/-- An entry keeps its name. -/
theorem lookup_unlockEntries (es : List (FileName × Node)) (name : FileName) :
    (unlockEntries es).lookup name = (es.lookup name).map unlock := by
  -- Along the entries, each of which has the name or not.
  induction es with
  | nil => rfl
  | cons e es ih =>
    obtain ⟨k, child⟩ := e
    rw [unlockEntries, List.lookup_cons, List.lookup_cons, ih]
    split <;> rfl

/-- What stands at some names stands there still. -/
theorem at?_unlock (n : Node) (names : List FileName) :
    n.unlock.at? names = (n.at? names).map unlock := by
  induction names generalizing n with
  | nil => rfl
  | cons name names ih =>
    cases n with
    | folder access es =>
      rw [unlock, at?, at?, entries, entries, lookup_unlockEntries]
      cases es.lookup name with
      | none => rfl
      | some child => exact ih child
    | _ => rfl

/-- A folder that stands at some names stands there with all its entries and refuses nothing. -/
theorem at?_unlock_folder {access : FolderAccess} {es : List (FileName × Node)}
    (h : n.at? names = some (folder access es)) :
    n.unlock.at? names = some (folder {} (unlockEntries es)) := by
  rw [at?_unlock, h]
  rfl

/-- Only a file is unlocked to a file, and it is the same. -/
theorem unlock_eq_file_iff {access : FileAccess} {content : ByteArray} :
    n.unlock = file access content ↔ n = file access content := by
  cases n <;> simp [unlock]

/-- What is no link is none without locks. -/
theorem unlock_ne_link (h : ∀ target, n ≠ link target) (target : Route) :
    n.unlock ≠ link target := by
  cases n with
  | link target' => exact absurd rfl (h target')
  | _ => simp [unlock]

end Node

namespace FileSystem

/-- The file system without locks. -/
def unlock (fs : FileSystem) : FileSystem := { fs with root := fs.root.unlock }

/-- The same place, with what stands there unlocked. -/
def Place.unlock : Place → Place
  | taken names n => taken names n.unlock
  | vacant folder name => vacant folder name

variable {root : Node} {links : Nat} {here names : List FileName} {place : Place}

/-- A path that can be followed leads to the same place when the folders are unlocked. -/
theorem walk_unlock (h : walk root .target links here names = .ok place) :
    walk root.unlock .target links here names = .ok place.unlock := by
  -- By the recursion of the walk. It succeeded, so that no folder on the way refused anything.
  fun_induction walk root .target links here names with
  | case1 links here n hn =>
    obtain rfl := Except.ok.inj h
    rw [walk, Node.at?_unlock, hn]
    rfl
  | case3 links here rest access es hn ih =>
    rw [walk_cons_of_empty (Node.at?_unlock_folder hn)]
    exact ih h
  | case5 links here rest access es hn _ _ ih =>
    rw [walk_cons_of_dot (Node.at?_unlock_folder hn) rfl]
    exact ih h
  | case6 links here rest access es hn _ _ _ ih =>
    rw [walk_cons_of_up (Node.at?_unlock_folder hn) rfl]
    exact ih h
  | case9 links here name rest access es hn hne _ hdot hup _ hsize hlook hrest =>
    obtain rfl := Except.ok.inj h
    have hlook' : (Node.unlockEntries es).lookup name = none := by
      rw [Node.lookup_unlockEntries, hlook]
      rfl
    rw [walk]
    simp [Node.at?_unlock_folder hn, hne, hdot, hup, hsize, hlook', hrest, Place.unlock]
  | case13 here name rest access es hn hne _ hdot hup _ hsize target hlook _ links ih =>
    have hlook' : (Node.unlockEntries es).lookup name = some (.link target) := by
      rw [Node.lookup_unlockEntries, hlook]
      rfl
    rw [walk_cons_of_link (Node.at?_unlock_folder hn) rfl (goesDown_iff.2 ⟨hne, hdot, hup⟩)
      (Nat.not_lt.1 hsize) hlook']
    exact ih h
  | case14 links here name rest access es hn hne _ hdot hup _ hsize child hlink hlook ih =>
    have hlook' : (Node.unlockEntries es).lookup name = some child.unlock := by
      rw [Node.lookup_unlockEntries, hlook]
      rfl
    rw [walk_cons_of_entry (Node.at?_unlock_folder hn) rfl (goesDown_iff.2 ⟨hne, hdot, hup⟩)
      (Nat.not_lt.1 hsize) hlook' (Node.unlock_ne_link hlink)]
    exact ih h
  | _ => simp_all

end FileSystem

end PrimaryDex
