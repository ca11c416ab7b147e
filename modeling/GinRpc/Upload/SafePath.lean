import GinRpc.Data.Path

/-!
# Where an uploaded file is stored

Model of `resolveSafeFilePath` in `plugins/upload/upload.go`, which `Upload`, `UploadFromBytes` and
`Delete` turn a file name into a path with.  There are no symbolic links, and the separator is a
slash.

* `Uploader.below_of_resolveSafeFilePath` : the path lies below the upload directory, unless the
  name is cleaned to the root.
* `Uploader.resolveSafeFilePath_root` : that name leads to the upload directory itself.
-/

namespace GinRpc

namespace Path

/-- The elements that two paths do not begin with in common -/
def dropCommon : List Text → List Text → List Text × List Text
  | b :: base, t :: targ => if b = t then dropCommon base targ else (b :: base, t :: targ)
  | base, targ => (base, targ)

/-- `filepath.Rel` -/
def rel (base targ : Path) : Except Text Text :=
  let rest := dropCommon base.elems targ.elems
  if base.rooted ≠ targ.rooted ∨ rest.1.head? = some (".." : Text) then
    .error ("Rel: can't make " ++ targ.text ++ " relative to " ++ base.text)
  else .ok (text ⟨false, List.replicate rest.1.length (".." : Text) ++ rest.2⟩)

/-- The second path leads to something in the directory, at any depth. -/
def Below (base p : Path) : Prop := ∃ l, l ≠ [] ∧ p = ⟨base.rooted, base.elems ++ l⟩

theorem not_below_self (p : Path) : ¬ p.Below p := by
  rintro ⟨l, hl, h⟩
  have h' : p.elems = p.elems ++ l := congrArg elems h
  exact hl (List.self_eq_append_right.1 h')

end Path

namespace Upload

/-- The parts of an `Uploader` and of its process that paths depend on -/
structure Uploader where
  uploadDir : Text
  /-- the working directory, or why it cannot be told -/
  getwd : Except Text Text
  getwd_rooted : ∀ wd, getwd = .ok wd → wd.head? = some '/'

namespace Uploader

variable (u : Uploader)

/-- `filepath.Abs` -/
def abs (path : Text) : Except Text Path :=
  if path.head? = some '/' then .ok (Path.clean path)
  else u.getwd.map fun wd => Path.join wd path

/-- `resolveSafeFilePath` -/
def resolveSafeFilePath (filename : Text) : Except Text Text :=
  let clean := Text.trimSpace filename
  let normalized := (Path.clean clean).text
  if clean = [] then .error "filename is required"
  else if '\\' ∈ clean then .error ("invalid filename: " ++ filename)
  else if normalized = "." ∨ normalized = ".." then .error ("invalid filename: " ++ filename)
  else if ("../" : Text) <+: normalized ∨ ("/../" : Text) <:+: normalized then
    .error ("invalid filename: " ++ filename)
  else
    match u.abs u.uploadDir with
    | .error err => .error ("failed to resolve upload directory: " ++ err)
    | .ok baseDir =>
      match u.abs (Path.join baseDir.text normalized).text with
      | .error err => .error ("failed to resolve file path: " ++ err)
      | .ok fullPathAbs =>
        match Path.rel baseDir fullPathAbs with
        | .error err => .error ("failed to validate file path: " ++ err)
        | .ok rel =>
          if rel = ".." ∨ ("../" : Text) <+: rel then .error ("invalid filename: " ++ filename)
          else .ok fullPathAbs.text

variable {u}

/-- An absolute path is clean and starts at the root. -/
theorem abs_spec {path : Text} {p : Path} (h : u.abs path = .ok p) :
    p.rooted = true ∧ Path.Tidy p.rooted p.elems := by
  unfold abs at h
  split_ifs at h with hroot
  · cases h
    exact ⟨beq_iff_eq.2 hroot, Path.tidy_clean path⟩
  · cases hwd : u.getwd with
    | error err =>
      rw [hwd] at h
      cases h
    | ok wd =>
      rw [hwd] at h
      cases h
      have hhead := u.getwd_rooted wd hwd
      have hne : wd ≠ [] := by
        rintro rfl
        cases hhead
      refine ⟨?_, Path.tidy_join wd path⟩
      show (Path.join wd path).rooted = true
      by_cases hpath : path = []
      · rw [Path.join, if_neg hne, if_pos hpath]
        exact beq_iff_eq.2 hhead
      · rw [Path.join_eq hne hpath]
        exact beq_iff_eq.2 hhead

/-- The text of an absolute path leads to it from anywhere. -/
theorem abs_text {p : Path} (hp : p.rooted = true) (h : Path.Reduced p.rooted p.elems) :
    u.abs p.text = .ok p := by
  have hhead := Path.head?_text h
  rw [hp, beq_iff_eq] at hhead
  rw [abs, if_pos hhead, Path.clean_text h]

/-- The path that a name is resolved to: its own elements come after those of the directory. -/
theorem clean_of_resolveSafeFilePath {filename path : Text}
    (h : u.resolveSafeFilePath filename = .ok path) :
    ∃ base, u.abs u.uploadDir = .ok base ∧ (Path.clean (Text.trimSpace filename)).text ≠ "." ∧
      Path.clean path =
        ⟨base.rooted, base.elems ++ (Path.clean (Text.trimSpace filename)).elems⟩ := by
  set name := Path.clean (Text.trimSpace filename) with hname
  unfold resolveSafeFilePath at h
  simp only [← hname] at h
  split_ifs at h with hempty hback hdot hup
  rw [not_or] at hdot hup
  have htidy : Path.Tidy name.rooted name.elems := Path.tidy_clean _
  cases hbase : u.abs u.uploadDir with
  | error err =>
    rw [hbase] at h
    cases h
  | ok base =>
    obtain ⟨hroot, hbaseTidy⟩ := abs_spec hbase
    have hjoin := Path.join_text hbaseTidy.reduced htidy.reduced
    rw [Path.foldl_push_names _ _ (htidy.isName hdot.2 hup.1)] at hjoin
    have hreduced := Path.reduced_join base.text name.text
    rw [hjoin] at hreduced
    simp only [hbase, hjoin] at h
    rw [abs_text (p := ⟨base.rooted, base.elems ++ name.elems⟩) hroot hreduced] at h
    simp only at h
    refine ⟨base, rfl, hdot.1, ?_⟩
    cases hrel : Path.rel base ⟨base.rooted, base.elems ++ name.elems⟩ with
    | error err =>
      rw [hrel] at h
      cases h
    | ok rel =>
      rw [hrel] at h
      simp only at h
      split_ifs at h
      cases h
      exact Path.clean_text hreduced

/-- A name leads below the upload directory, or it is cleaned to the root and leads to the
directory. -/
theorem below_of_resolveSafeFilePath (u : Uploader) {filename path : Text}
    (h : u.resolveSafeFilePath filename = .ok path) :
    ∃ base, u.abs u.uploadDir = .ok base ∧
      ((Path.clean (Text.trimSpace filename)).text ≠ "/" → base.Below (Path.clean path)) ∧
      ((Path.clean (Text.trimSpace filename)).text = "/" → Path.clean path = base) := by
  obtain ⟨base, hbase, hdot, hclean⟩ := clean_of_resolveSafeFilePath h
  refine ⟨base, hbase, fun hroot => ⟨_, fun hnil => ?_, hclean⟩, fun hroot => ?_⟩
  · rw [Path.text, if_pos hnil] at hdot hroot
    split_ifs at hdot hroot with hr
    · exact hroot rfl
    · exact hdot rfl
  · have hself := Path.clean_text (Path.tidy_clean (Text.trimSpace filename)).reduced
    have hnil : (Path.clean (Text.trimSpace filename)).elems = [] := by
      rw [← hself, hroot]
      decide
    rw [hclean, hnil, List.append_nil]

/-- An uploader with the default directory -/
def uploads : Uploader where
  uploadDir := "./uploads"
  getwd := .ok "/srv"
  getwd_rooted wd h := by cases h; rfl

theorem below_of_resolveSafeFilePath_dots :
    uploads.resolveSafeFilePath " a/../b.txt" = .ok "/srv/uploads/b.txt" ∧
      ∃ base, uploads.abs uploads.uploadDir = .ok base ∧
        base.Below (Path.clean "/srv/uploads/b.txt") := by
  have h : uploads.resolveSafeFilePath " a/../b.txt" = .ok "/srv/uploads/b.txt" := by decide
  obtain ⟨base, hbase, hbelow, -⟩ := below_of_resolveSafeFilePath uploads h
  exact ⟨h, base, hbase, hbelow (by decide)⟩

/-- The name `/` is accepted, and `Delete` would remove the directory. -/
theorem resolveSafeFilePath_root :
    ∃ path base, uploads.resolveSafeFilePath "/" = .ok path ∧
      uploads.abs uploads.uploadDir = .ok base ∧ ¬ base.Below (Path.clean path) :=
  ⟨"/srv/uploads", Path.clean "/srv/uploads", by decide, by decide, Path.not_below_self _⟩

end Uploader

end Upload

end GinRpc
