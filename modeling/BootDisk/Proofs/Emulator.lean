import BootDisk.Boot
import BootDisk.Proofs.Machine

/-!
# The drive that the emulator gets

The value of the emulator's drive option is a list of settings with commas between them, and a comma that belongs to a setting's value has
to be written twice (`Emulator.settings?`). The path of the image is written as it is, so it is read as the name of the file up to its first
lone comma, and as more settings from there on (`Emulator.settings?_driveValue`). The emulator gets exactly the image of the project if there
is no comma in its path, and something else if there is one (`Project.drive_exact_iff`).
-/

namespace BootDisk

namespace Emulator

/-! ## Reading settings -/

/-- A text cut at every comma that stands alone. Commas that are doubled are left in the pieces. -/
def pieces : List Char → List (List Char)
  | [] => [[]]
  | ',' :: ',' :: cs => (pieces cs).modifyHead ([',', ','] ++ ·)
  | ',' :: cs => [] :: pieces cs
  | c :: cs => (pieces cs).modifyHead ([c] ++ ·)

/-- A text with one comma for every two. -/
def undoubled : List Char → List Char
  | [] => []
  | ',' :: ',' :: cs => ',' :: undoubled cs
  | c :: cs => c :: undoubled cs

/-- A text with every comma written twice. -/
def doubled : List Char → List Char
  | [] => []
  | c :: cs => if c = ',' then ',' :: ',' :: doubled cs else c :: doubled cs

/-- The setting that a piece is: a key, which has no comma, and behind the first equals sign its value. -/
def setting? (piece : List Char) : Option (String × String) :=
  let key := piece.takeWhile (· ≠ '=')
  match piece.dropWhile (· ≠ '=') with
  | [] => none
  | _ :: value => if ',' ∈ key then none else some (String.ofList key, String.ofList (undoubled value))

/-- The settings that the value of an option is read as. -/
def settings? (value : String) : Option (List (String × String)) :=
  (pieces value.toList).mapM setting?

variable {c : Char} {cs front piece : List Char}

theorem pieces_cons (hc : c ≠ ',') (cs : List Char) : pieces (c :: cs) = (pieces cs).modifyHead ([c] ++ ·) := by
  -- the last equation is for what the two of a comma are not
  rw [pieces]
  · exact fun _ h _ => hc h
  · exact hc

/-- A comma with no other behind it stands alone. -/
theorem pieces_lone (hnext : cs.head? ≠ some ',') : pieces (',' :: cs) = [] :: pieces cs := by
  rw [pieces]
  rintro cs' rfl
  exact hnext rfl

/-- What has no comma in it is in the first piece. -/
theorem pieces_append (hfront : ',' ∉ front) (cs : List Char) : pieces (front ++ cs) = (pieces cs).modifyHead (front ++ ·) := by
  induction front with
  | nil => cases h : pieces cs <;> simp [h]
  | cons c front ih =>
    rw [List.cons_append, pieces_cons (List.ne_of_not_mem_cons hfront).symm, ih (List.not_mem_of_not_mem_cons hfront)]
    cases pieces cs <;> rfl

theorem undoubled_cons (hc : c ≠ ',') (cs : List Char) : undoubled (c :: cs) = c :: undoubled cs := by
  rw [undoubled]
  exact fun _ h _ => hc h

theorem pieces_ne_nil (cs : List Char) : pieces cs ≠ [] := by
  fun_induction pieces cs with
  | case1 => exact List.cons_ne_nil _ _
  | case2 cs ih => exact mt List.modifyHead_eq_nil_iff.1 ih
  | case3 cs hnext ih => exact List.cons_ne_nil _ _
  | case4 c cs _ hc ih => exact mt List.modifyHead_eq_nil_iff.1 ih

/-- A text with every comma written twice is one piece, and is read as it was before. -/
theorem pieces_doubled (cs : List Char) : pieces (doubled cs) = [doubled cs] ∧ undoubled (doubled cs) = cs := by
  induction cs with
  | nil => exact ⟨rfl, rfl⟩
  | cons c cs ih =>
    obtain ⟨hpieces, hundoubled⟩ := ih
    by_cases hc : c = ','
    · rw [doubled, if_pos hc, pieces, undoubled, hpieces, hundoubled, hc]
      exact ⟨rfl, rfl⟩
    · rw [doubled, if_neg hc, pieces_cons hc, undoubled_cons hc, hpieces, hundoubled]
      exact ⟨rfl, rfl⟩

theorem doubled_of_not_mem (h : ',' ∉ cs) : doubled cs = cs := by
  induction cs with
  | nil => rfl
  | cons c cs ih =>
    rw [doubled, if_neg (List.ne_of_not_mem_cons h).symm, ih (List.not_mem_of_not_mem_cons h)]

theorem of_modifyHead_eq_single {ps : List (List Char)} (h : ps.modifyHead (front ++ ·) = [piece]) : ∃ p, ps = [p] ∧ piece = front ++ p := by
  cases ps with
  | nil => cases h
  | cons p ps =>
    cases h
    exact ⟨p, rfl, rfl⟩

/-- A text that is all one piece has its commas in pairs, of which one is left. -/
theorem count_of_single (h : pieces cs = [piece]) : cs.count ',' = 2 * (undoubled piece).count ',' := by
  fun_induction pieces cs generalizing piece with
  | case1 =>
    cases h
    rfl
  | case2 cs ih =>
    obtain ⟨p, hp, rfl⟩ := of_modifyHead_eq_single h
    have hcount := ih hp
    simp only [List.cons_append, List.nil_append, undoubled, List.count_cons_self]
    omega
  | case3 cs hnext ih => exact absurd (List.cons.inj h).2 (pieces_ne_nil cs)
  | case4 c cs _ hc ih =>
    obtain ⟨p, hp, rfl⟩ := of_modifyHead_eq_single h
    rw [List.singleton_append, undoubled_cons hc, List.count_cons_of_ne hc, List.count_cons_of_ne hc]
    exact ih hp

/-! ## The drive's settings -/

/-- A piece with a key in front is the setting of that key. -/
theorem setting?_of_key (key : List Char) (hequals : '=' ∉ key) (hcomma : ',' ∉ key) (value : List Char) :
    setting? (key ++ '=' :: value) = some (String.ofList key, String.ofList (undoubled value)) := by
  have hkey : ∀ c ∈ key, decide (c ≠ '=') = true := by
    intro c hc
    rw [decide_eq_true_eq]
    rintro rfl
    exact hequals hc
  unfold setting?
  rw [List.takeWhile_append_of_pos hkey, List.dropWhile_append_of_pos hkey]
  simp [hcomma]

/-- The path of the disk is read as a file up to its first lone comma, and what comes behind as more settings. -/
theorem settings?_driveValue (disk : Path) {file : List Char} {more : List (List Char)}
    (hpieces : pieces disk.text.toList = file :: more) :
    settings? (driveValue disk) =
      (more.mapM setting?).map fun rest => ("format", "raw") :: ("file", String.ofList (undoubled file)) :: rest := by
  have hvalue : (driveValue disk).toList = "format=raw".toList ++ ',' :: ("file=".toList ++ disk.text.toList) := by
    rw [show driveValue disk = "format=raw,file=" ++ disk.text from rfl, String.toList_append]
    rfl
  have hnext : ("file=".toList ++ disk.text.toList).head? ≠ some ',' := show some 'f' ≠ some ',' by decide
  have hcut : pieces (driveValue disk).toList = "format=raw".toList :: ("file=".toList ++ file) :: more := by
    rw [hvalue, pieces_append (by decide), pieces_lone hnext, pieces_append (by decide), hpieces]
    rfl
  have hformat : setting? "format=raw".toList = some ("format", "raw") := by decide
  have hfile : setting? ("file=".toList ++ file) = some ("file", String.ofList (undoubled file)) :=
    setting?_of_key "file".toList (by decide) (by decide) file
  rw [settings?, hcut, List.mapM_cons, List.mapM_cons, hformat, hfile]
  cases more.mapM setting? <;> rfl

/-- With every comma of the path written twice, it would be read as that file and nothing more. -/
theorem settings?_doubled (disk : Path) :
    settings? (driveValue ⟨String.ofList (doubled disk.text.toList)⟩) = some [("format", "raw"), ("file", disk.text)] := by
  obtain ⟨hpieces, hundoubled⟩ := pieces_doubled disk.text.toList
  have hdisk : pieces (String.ofList (doubled disk.text.toList)).toList = [doubled disk.text.toList] := by
    rw [String.toList_ofList, hpieces]
  rw [settings?_driveValue ⟨String.ofList (doubled disk.text.toList)⟩ hdisk, hundoubled, String.ofList_toList]
  rfl

/-- So it is, as the path is written, exactly if there is no comma in it. -/
theorem settings?_driveValue_iff (disk : Path) :
    settings? (driveValue disk) = some [("format", "raw"), ("file", disk.text)] ↔ ',' ∉ disk.text.toList := by
  constructor
  · intro h
    obtain ⟨file, more, hpieces⟩ := List.exists_cons_of_ne_nil (pieces_ne_nil disk.text.toList)
    rw [settings?_driveValue disk hpieces] at h
    obtain ⟨rest, hrest, h⟩ := Option.map_eq_some_iff.1 h
    simp only [List.cons.injEq, Prod.mk.injEq, true_and] at h
    obtain ⟨htext, rfl⟩ := h
    cases more with
    | cons piece more =>
      rw [List.mapM_cons] at hrest
      obtain ⟨first, -, hrest⟩ := Option.bind_eq_some_iff.1 hrest
      obtain ⟨others, -, hrest⟩ := Option.bind_eq_some_iff.1 hrest
      cases hrest
    | nil =>
      -- what is read has half of the commas, and is all of the path
      have hcount := count_of_single hpieces
      rw [← htext, String.toList_ofList] at hcount
      rw [← htext, String.toList_ofList, ← List.count_eq_zero]
      omega
  · intro h
    have hdisk := settings?_doubled disk
    rwa [doubled_of_not_mem h, String.ofList_toList] at hdisk

/-! ## The command line -/

theorem serialValue_ne_drive (line : SerialLine) : serialValue line ≠ "-drive" := by
  cases line with
  | stdio => decide
  | file path =>
    intro h
    have hfirst := congrArg (fun s : String => s.toList.head?) h
    rw [show serialValue (.file path) = "file:" ++ path.text from rfl, String.toList_append] at hfirst
    exact absurd (show some 'f' = some '-' from hfirst) (by decide)

theorem memory_ne_drive (mb : Nat) : s!"{mb}M" ≠ "-drive" := by
  intro h
  have hlast := congrArg (fun s : String => s.toList.getLast?) h
  rw [show s!"{mb}M" = toString mb ++ "M" from rfl, String.toList_append] at hlast
  rw [show "M".toList = ['M'] from rfl, List.getLast?_concat] at hlast
  exact absurd hlast (by decide)

/-- Before what the project adds, a guest with a disk is told of one drive. -/
theorem args_of_disk (e : Emulator) {disk : Path} (hdisk : e.disk = some disk) :
    ∃ before after, e.args = before ++ "-drive" :: driveValue disk :: after ++ e.extraArgs ∧ "-drive" ∉ before ∧ "-drive" ∉ after := by
  refine ⟨(if e.kvm then ["-enable-kvm", "-cpu", "host"] else []) ++ ["-m", s!"{e.memoryMb.toNat}M"],
    ["-serial", serialValue e.serial] ++ (if e.serialOnly then ["-display", "none"] else []), ?_, ?_, ?_⟩
  · unfold args
    rw [hdisk]
    simp
  · have hkvm : "-drive" ∉ if e.kvm then ["-enable-kvm", "-cpu", "host"] else [] := by cases e.kvm <;> decide
    have hmemory : "-drive" ∉ ["-m", s!"{e.memoryMb.toNat}M"] :=
      List.not_mem_cons_of_ne_of_not_mem (by decide) (mt List.mem_singleton.1 (memory_ne_drive _).symm)
    exact List.not_mem_append hkvm hmemory
  · have hserial : "-drive" ∉ ["-serial", serialValue e.serial] :=
      List.not_mem_cons_of_ne_of_not_mem (by decide) (mt List.mem_singleton.1 (serialValue_ne_drive _).symm)
    have hdisplay : "-drive" ∉ if e.serialOnly then ["-display", "none"] else [] := by cases e.serialOnly <;> decide
    exact List.not_mem_append hserial hdisplay

end Emulator

namespace Project

variable {p : Project} {m : Machine}

/-- There is a command that boots an image that is there. -/
theorem bootCommand_of_file (hfile : m.tree.isFile m.cwd p.config.image.path = true) (headless : Bool) (serialLog : Option Path) :
    ∃ kvm, p.bootCommand headless serialLog m = .ok (p.guest kvm headless serialLog).command m := by
  have hholds : Act.holds (fun t cwd => t.isFile cwd p.config.image.path) m = .ok true m := by rw [Act.holds, hfile]
  exact ⟨_, bind_of_ok hholds⟩

/-- The command that boots an image that is there tells the emulator of one drive before what the project adds. The drive is read as the
image in its raw form, and nothing more, exactly if there is no comma in the image's path, while with every comma written twice it would be
for every path. -/
theorem drive_exact_iff (hfile : m.tree.isFile m.cwd p.config.image.path = true) (headless : Bool) (serialLog : Option Path) :
    ∃ c before drive after, p.bootCommand headless serialLog m = .ok c m ∧
      c.args = before ++ "-drive" :: drive :: after ++ p.config.qemu.extraArgs ∧ "-drive" ∉ before ∧ "-drive" ∉ after ∧
      (Emulator.settings? drive = some [("format", "raw"), ("file", p.config.image.path.text)] ↔ ',' ∉ p.config.image.path.text.toList) ∧
      Emulator.settings? (Emulator.driveValue ⟨String.ofList (Emulator.doubled p.config.image.path.text.toList)⟩) =
        some [("format", "raw"), ("file", p.config.image.path.text)] := by
  obtain ⟨kvm, hcommand⟩ := bootCommand_of_file hfile headless serialLog
  obtain ⟨before, after, hargs, hbefore, hafter⟩ :=
    Emulator.args_of_disk (p.guest kvm headless serialLog) rfl
  exact ⟨_, before, _, after, hcommand, hargs, hbefore, hafter, Emulator.settings?_driveValue_iff _, Emulator.settings?_doubled _⟩

/-- A project that chooses nothing but the path of its image. -/
def withImage (path : Path) : Project where
  root := ⟨"/"⟩
  config := { image := { path := path } }
  profile := .release

/-- A machine where there are two images, one with a comma in its name. -/
def sampleImages : Machine where
  tree :=
    ⟨[(["disk=1.img"], .file ⟨.ofList [0], newFileMode, 0⟩), (["disk.img,readonly=on"], .file ⟨.ofList [0], newFileMode, 0⟩)]⟩
  cwd := []
  searchPath := ""
  home := ⟨""⟩
  clock := 0

/-- The emulator is told of the image without a comma, whatever else is in its name. -/
theorem drive_exact_iff_sampleImages :
    sampleImages.tree.isFile sampleImages.cwd ⟨"/disk=1.img"⟩ = true ∧
      ∃ c before drive after, (withImage ⟨"/disk=1.img"⟩).bootCommand true (some ⟨"a,b"⟩) sampleImages = .ok c sampleImages ∧
        c.args = before ++ "-drive" :: drive :: after ∧ "-drive" ∉ before ∧ "-drive" ∉ after ∧
        Emulator.settings? drive = some [("format", "raw"), ("file", "/disk=1.img")] := by
  have hfile : sampleImages.tree.isFile sampleImages.cwd ⟨"/disk=1.img"⟩ = true := by decide +kernel
  obtain ⟨c, before, drive, after, hcommand, hargs, hbefore, hafter, hiff, -⟩ :=
    drive_exact_iff (p := withImage ⟨"/disk=1.img"⟩) hfile true (some ⟨"a,b"⟩)
  exact ⟨hfile, c, before, drive, after, hcommand, hargs.trans (List.append_nil _), hbefore, hafter, hiff.2 (by decide)⟩

/-- Where there is a comma, it is told of another file, and of a setting that the project does not have. -/
theorem drive_of_comma :
    sampleImages.tree.isFile sampleImages.cwd ⟨"/disk.img,readonly=on"⟩ = true ∧
      ∃ c before drive after, (withImage ⟨"/disk.img,readonly=on"⟩).bootCommand false none sampleImages = .ok c sampleImages ∧
        c.args = before ++ "-drive" :: drive :: after ∧ "-drive" ∉ before ∧ "-drive" ∉ after ∧
        Emulator.settings? drive = some [("format", "raw"), ("file", "/disk.img"), ("readonly", "on")] := by
  have hfile : sampleImages.tree.isFile sampleImages.cwd ⟨"/disk.img,readonly=on"⟩ = true := by decide +kernel
  obtain ⟨kvm, hcommand⟩ := bootCommand_of_file (p := withImage ⟨"/disk.img,readonly=on"⟩) hfile false none
  obtain ⟨before, after, hargs, hbefore, hafter⟩ :=
    Emulator.args_of_disk ((withImage ⟨"/disk.img,readonly=on"⟩).guest kvm false none) rfl
  exact ⟨hfile, _, before, _, after, hcommand, hargs.trans (List.append_nil _), hbefore, hafter, by decide +kernel⟩

end Project

end BootDisk
