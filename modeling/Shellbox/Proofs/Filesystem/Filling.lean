import Shellbox.Proofs.Filesystem.Standing

/-!
# A file that is filled

As long as the directory that holds an absolute path is there and no directory is in its place, a
text can be written there and is read back as it was written. So a file that holds some texts, one
behind the other, can be given one more.
-/

namespace Shellbox.Filesystem

open Text

variable {fs fs' : Filesystem} {p : String} {path : Option String} {texts : List String}

theorem read_eq (fs : Filesystem) (path : Option String) :
    fs.read path = match fs.content? (fs.names path) with
      | none => .error ⟨path, .notFound⟩
      | some none => .error ⟨path, .isDirectory⟩
      | some (some text) => .ok text := by
  rw [read, node?, content?, Node.record?]
  rcases fs.root.get? (fs.names path) with - | ⟨i, text⟩ | ⟨i, cs⟩ <;> rfl

theorem isDir_iff : fs.isDir path ↔ fs.content? (fs.names path) = some none := by
  rw [content?_eq_dir_iff]
  rfl

theorem isFile_iff : fs.isFile path ↔ ∃ text, fs.read path = .ok text := by
  rw [isFile, read]
  rcases fs.node? path with - | ⟨i, text⟩ | ⟨i, cs⟩ <;> simp [Node.isFile]

theorem isFile_iff_content? :
    fs.isFile path ↔ ∃ old, fs.content? (fs.names path) = some (some old) := by
  simp only [isFile_iff, read_eq]
  rcases fs.content? (fs.names path) with - | - | old <;> simp

theorem content?_ne_dir_iff :
    fs.content? (fs.names path) ≠ some none ↔ fs.node? path = none ∨ fs.isFile path := by
  rw [← content?_eq_none_iff, isFile_iff_content?]
  rcases fs.content? (fs.names path) with - | - | old <;> simp

theorem node?_kind (fs : Filesystem) (path : Option String) :
    (fs.node? path).map Node.kind =
      (fs.content? (fs.names path)).map fun text => if text = none then .directory else .file := by
  rw [node?, content?, Node.record?]
  rcases fs.root.get? (fs.names path) with - | ⟨i, text⟩ | ⟨i, cs⟩ <;> rfl

theorem names_of_isAbsolute (hp : Path.IsAbsolute p) (fs fs' : Filesystem) :
    fs.names (some p) = fs'.names (some p) := by
  rw [names, names, resolve, resolve, Path.resolve_of_isAbsolute _ _ hp,
    Path.resolve_of_isAbsolute _ _ hp]

/-- The directory that holds the path, or would hold it, is there. -/
def HasFolder (fs : Filesystem) (p : String) : Prop := fs.isDir (some (fs.holderPath p))

instance (fs : Filesystem) (p : String) : Decidable (fs.HasFolder p) :=
  inferInstanceAs (Decidable (_ = _))

theorem hasFolder_iff (hp : Path.IsAbsolute p) :
    fs.HasFolder p ↔ fs.content? (fs.names (some p)).dropLast = some none := by
  rw [HasFolder, isDir_iff, names_holderPath (Path.isNormal_of_isAbsolute _ _ hp)]

/-- A text that is written to an absolute path is read back there. -/
theorem write_of_isAbsolute (hp : Path.IsAbsolute p) (hfolder : fs.HasFolder p)
    (hplace : ¬ fs.isDir (some p)) (now : Instant) (text : String) :
    ∃ fs', fs.write now (some p) text = .ok fs' ∧ fs'.HasFolder p ∧
      fs'.read (some p) = .ok text := by
  rw [hasFolder_iff hp] at hfolder
  rw [isDir_iff] at hplace
  rcases List.eq_nil_or_concat' (fs.names (some p)) with hnil | ⟨ms, name, hnames⟩
  · rw [hnil] at hfolder hplace
    exact absurd hfolder hplace
  · rw [hnames, List.dropLast_concat] at hfolder
    obtain ⟨root, hwrite⟩ := exists_write now text hnames hfolder hplace
    have hkept := names_of_isAbsolute hp { fs with root } fs
    have hcontent := content?_write hwrite
    refine ⟨_, hwrite, ?_, ?_⟩
    · rw [hasFolder_iff hp, hkept, hnames, List.dropLast_concat]
      exact write_keepsDirs hwrite _ hfolder
    · rw [read_eq, hkept, hcontent, if_pos rfl]

/-! ## Texts one behind the other -/

/-- The directory that holds the path is there, and the file at it holds the texts with line breaks
between them; as long as there are none, nothing is there. -/
structure Filled (fs : Filesystem) (p : String) (texts : List String) : Prop where
  folder : fs.HasFolder p
  content : fs.read (some p) =
    if texts = [] then .error ⟨some p, .notFound⟩ else .ok (joinLines texts)

theorem Filled.of_absent (hfolder : fs.HasFolder p) (habsent : fs.node? (some p) = none) :
    fs.Filled p [] := by
  refine ⟨hfolder, ?_⟩
  rw [read, habsent]
  rfl

theorem Filled.not_isDir (h : fs.Filled p texts) : ¬ fs.isDir (some p) := by
  intro hdir
  have hread : fs.read (some p) = .error ⟨some p, .isDirectory⟩ := by
    rw [read_eq, isDir_iff.mp hdir]
  rw [h.content] at hread
  by_cases hnil : texts = [] <;> simp [hnil] at hread

theorem Filled.isFile_iff (h : fs.Filled p texts) : fs.isFile (some p) ↔ texts ≠ [] := by
  rw [Filesystem.isFile_iff, h.content]
  by_cases hnil : texts = [] <;> simp [hnil]

/-- The file is given one more text. -/
theorem Filled.write (h : fs.Filled p texts) (hp : Path.IsAbsolute p) (now : Instant)
    (text : String) :
    ∃ fs', fs.write now (some p) (joinLines (texts ++ [text])) = .ok fs' ∧
      fs'.Filled p (texts ++ [text]) := by
  obtain ⟨fs', hwrite, hfolder, hread⟩ :=
    write_of_isAbsolute hp h.folder h.not_isDir now (joinLines (texts ++ [text]))
  exact ⟨fs', hwrite, hfolder, by rw [hread, if_neg (by simp)]⟩

end Shellbox.Filesystem
