import EntityDiagram.FileTree

namespace EntityDiagram

theorem bind_eq_ok_iff {ε α β : Type} {x : Except ε α} {f : α → Except ε β} {b : β} :
    x >>= f = .ok b ↔ ∃ a, x = .ok a ∧ f a = .ok b := by
  cases x with
  | error e => simp [bind, Except.bind]
  | ok a => simp [bind, Except.bind]

namespace FileTree

variable {t : FileTree} {place q next : Place} {entry : Entry} {path name : String}

/-- From the place where it starts a path leads, name by name, to a place with something there. -/
def LeadsTo (t : FileTree) (path : String) (place : Place) : Prop :=
  ∃ p, FilePath.ofString path = .ok p ∧ t.walk (t.start p) p.names = .ok place

theorem isSome_entryAt?_put (h : (t.entryAt? q).isSome) :
    ((t.put place entry).entryAt? q).isSome := by
  by_cases hq : q = place
  · subst hq
    by_cases hroot : q = []
    · simp [entryAt?, hroot]
    · simp [entryAt?_put_self hroot]
  · rwa [entryAt?_put_of_ne hq]

theorem entryAt?_of_child (h : t.child q name = .ok next) : t.entryAt? q = some .directory := by
  unfold child at h
  split at h
  next => cases h
  next hq => exact hq
  next => cases h

theorem step_eq_ok_iff :
    t.step q name = .ok next ↔ t.child q name = .ok next ∧ (t.entryAt? next).isSome := by
  rw [step, bind_eq_ok_iff]
  constructor
  · rintro ⟨a, ha, h⟩
    split at h
    next hsome =>
      obtain rfl := Except.ok.inj h
      exact ⟨ha, hsome⟩
    next => cases h
  · rintro ⟨hchild, hsome⟩
    exact ⟨next, hchild, by rw [if_pos hsome]; rfl⟩

section Put

variable (hplace : t.entryAt? place ≠ some .directory)

include hplace

theorem child_put (h : t.child q name = .ok next) :
    (t.put place entry).child q name = .ok next := by
  have hq : q ≠ place := fun e => hplace (e ▸ entryAt?_of_child h)
  rw [← h]
  simp only [child, entryAt?_put_of_ne hq]

theorem step_put (h : t.step q name = .ok next) : (t.put place entry).step q name = .ok next := by
  obtain ⟨hchild, hsome⟩ := step_eq_ok_iff.mp h
  exact step_eq_ok_iff.mpr ⟨child_put hplace hchild, isSome_entryAt?_put hsome⟩

theorem walk_put {names : List String} (h : t.walk q names = .ok next) :
    (t.put place entry).walk q names = .ok next := by
  induction names generalizing q with
  | nil => exact h
  | cons name names ih =>
    rw [walk, List.foldlM_cons, bind_eq_ok_iff] at h ⊢
    obtain ⟨r, hstep, hrest⟩ := h
    exact ⟨r, step_put hplace hstep, ih hrest⟩

end Put

theorem find_eq_ok_iff :
    t.find path = .ok entry ↔
      ∃ p q, FilePath.ofString path = .ok p ∧ t.walk (t.start p) p.names = .ok q ∧
        t.entryAt? q = some entry ∧ (p.endsInSlash = true → entry = .directory) := by
  simp only [find, bind_eq_ok_iff]
  constructor
  · rintro ⟨p, hp, q, hq, h⟩
    refine ⟨p, q, hp, hq, ?_⟩
    split at h
    next => cases h
    next found hfound =>
      split at h
      next => cases h
      next hslash =>
        obtain rfl := Except.ok.inj h
        exact ⟨hfound, by simpa using hslash⟩
  · rintro ⟨p, q, hp, hq, hentry, hslash⟩
    refine ⟨p, hp, q, hq, ?_⟩
    have hfile : ¬ (p.endsInSlash && entry != .directory) = true := by simpa using hslash
    rw [hentry]
    exact if_neg hfile

theorem readText_eq_ok_iff {content : String} :
    t.readText path = .ok content ↔ t.find path = .ok (.text content) := by
  rw [readText, bind_eq_ok_iff]
  constructor
  · rintro ⟨found, hfound, h⟩
    cases found with
    | text content =>
      obtain rfl := Except.ok.inj h
      exact hfound
    | directory => cases h
    | binary => cases h
  · intro h
    exact ⟨_, h, rfl⟩

theorem readText_put {content : String} (hplace : t.entryAt? place ≠ some .directory)
    (h : t.readText path = .ok content) (text : String) :
    (t.put place (.text text)).readText path = .ok content ∨
      t.LeadsTo path place ∧ (t.put place (.text text)).readText path = .ok text := by
  obtain ⟨p, q, hp, hq, hcontent, hslash⟩ := find_eq_ok_iff.mp (readText_eq_ok_iff.mp h)
  have hwalk : (t.put place (.text text)).walk (t.start p) p.names = .ok q := walk_put hplace hq
  have hfile : p.endsInSlash ≠ true := fun e => nomatch hslash e
  by_cases he : q = place
  · subst he
    have hroot : q ≠ [] := fun e => hplace (by rw [e]; rfl)
    refine Or.inr ⟨⟨p, hp, hq⟩, readText_eq_ok_iff.mpr (find_eq_ok_iff.mpr ?_)⟩
    exact ⟨p, q, hp, hwalk, entryAt?_put_self hroot, fun e => absurd e hfile⟩
  · refine Or.inl (readText_eq_ok_iff.mpr (find_eq_ok_iff.mpr ?_))
    exact ⟨p, q, hp, hwalk, (entryAt?_put_of_ne he).trans hcontent, hslash⟩

theorem target_eq_ok (h : t.target path = .ok place) :
    ∃ p names name parent, FilePath.ofString path = .ok p ∧ p.names = names ++ [name] ∧
      t.walk (t.start p) names = .ok parent ∧ t.child parent name = .ok place ∧
      p.endsInSlash = false ∧ t.entryAt? place ≠ some .directory := by
  obtain ⟨p, hp, h⟩ := bind_eq_ok_iff.mp h
  split at h
  next => cases h
  next name hname =>
    obtain ⟨names, hnames⟩ := List.getLast?_eq_some_iff.mp hname
    obtain ⟨parent, hparent, h⟩ := bind_eq_ok_iff.mp h
    rw [hnames, List.dropLast_concat] at hparent
    split at h
    next => cases h
    next hslash =>
      obtain ⟨found, hchild, h⟩ := bind_eq_ok_iff.mp h
      split at h
      next => cases h
      next hfound =>
        obtain rfl := Except.ok.inj h
        have hdirectory := entryAt?_of_child hchild
        exact ⟨p, names, name, parent, hp, hnames, hparent, hchild,
          by simpa [hdirectory] using hslash, hfound⟩

/-- A file that is written is read under the path that it was written to. -/
theorem readText_put_target (h : t.target path = .ok place) (content : String) :
    (t.put place (.text content)).readText path = .ok content := by
  obtain ⟨p, names, name, parent, hp, hnames, hparent, hchild, hslash, hplace⟩ := target_eq_ok h
  have hroot : place ≠ [] := fun e => hplace (by rw [e]; rfl)
  have hentry : (t.put place (.text content)).entryAt? place = some (.text content) :=
    entryAt?_put_self hroot
  have hstep : (t.put place (.text content)).step parent name = .ok place :=
    step_eq_ok_iff.mpr ⟨child_put hplace hchild, by rw [hentry]; rfl⟩
  refine readText_eq_ok_iff.mpr (find_eq_ok_iff.mpr ⟨p, place, hp, ?_, hentry, by simp [hslash]⟩)
  rw [hnames, walk, List.foldlM_append, bind_eq_ok_iff]
  exact ⟨parent, walk_put hplace hparent, by rw [List.foldlM_cons, hstep]; rfl⟩

/-- One tree comes from another by the writing of a text to a path: the file at its place holds the
text, and what is elsewhere is as before. -/
structure Rewritten (before after : FileTree) (path text : String) (place : Place) : Prop where
  target : before.target path = .ok place
  held : after.entryAt? place = some (.text text)
  read : after.readText path = .ok text
  others : ∀ other, other ≠ place → after.entryAt? other = before.entryAt? other
  workingDirectory : after.workingDirectory = before.workingDirectory
  readable : ∀ other content, before.readText other = .ok content →
    after.readText other = .ok content ∨
      before.LeadsTo other place ∧ after.readText other = .ok text

theorem rewritten_put (h : t.target path = .ok place) (text : String) :
    t.Rewritten (t.put place (.text text)) path text place := by
  obtain ⟨_, _, _, _, _, _, _, _, _, hplace⟩ := target_eq_ok h
  have hroot : place ≠ [] := fun e => hplace (by rw [e]; rfl)
  exact {
    target := h
    held := entryAt?_put_self hroot
    read := readText_put_target h text
    others := fun _ hne => entryAt?_put_of_ne hne
    workingDirectory := rfl
    readable := fun _ _ hread => readText_put hplace hread text }

end FileTree

end EntityDiagram
