import Handheld.Cartridge.Load
import Handheld.Proofs.ExternalRam
import Handheld.Proofs.MachineRanges
import Mathlib.Data.List.DropRight

/-!
# Images that can be loaded

An image is loaded if it is large enough for a header and three codes in it are known. Of several
faults the first one is told. The title is what stands before the first NUL without the blanks at
its end. Nothing but the header decides on what is loaded, and no byte outside of the image is read.
-/

namespace Handheld.Cartridge

/-! ## Codes -/

def Header.RomCode (code : UInt8) : Prop := code ≤ 0x08 ∨ 0x52 ≤ code ∧ code ≤ 0x54

def Header.RamCode (code : UInt8) : Prop := code ≤ 0x05

def Kind.Code (code : UInt8) : Prop :=
  code ≤ 0x03 ∨ code ∈ [0x05, 0x06, 0x08, 0x09] ∨ 0x0f ≤ code ∧ code ≤ 0x13

namespace Header

theorem romBanks?_eq_none_iff (code : UInt8) : romBanks? code = none ↔ ¬ RomCode code := by
  unfold romBanks? RomCode
  grind

theorem exists_romBanks {code : UInt8} (h : RomCode code) : ∃ n, romBanks? code = some n :=
  Option.ne_none_iff_exists'.1 fun hnone => (romBanks?_eq_none_iff code).1 hnone h

theorem ramBanks?_eq_none_iff (code : UInt8) : ramBanks? code = none ↔ ¬ RamCode code := by
  unfold ramBanks? RamCode
  grind

theorem exists_ramBanks {code : UInt8} (h : RamCode code) : ∃ n, ramBanks? code = some n :=
  Option.ne_none_iff_exists'.1 fun hnone => (ramBanks?_eq_none_iff code).1 hnone h

end Header

theorem Kind.ofCode?_eq_none_iff (code : UInt8) : ofCode? code = none ↔ ¬ Code code := by
  unfold ofCode? Code
  grind

theorem Kind.exists_ofCode {code : UInt8} (h : Code code) : ∃ kind, ofCode? code = some kind :=
  Option.ne_none_iff_exists'.1 fun hnone => (ofCode?_eq_none_iff code).1 hnone h

/-! ## Titles -/

namespace Header

def Blank (b : UInt8) : Prop := b ∈ [0x09, 0x0a, 0x0b, 0x0c, 0x0d, 0x20, 0x85, 0xa0]

theorem isBlank_iff (b : UInt8) : isBlank b = true ↔ Blank b := by
  simp only [isBlank, Blank, List.mem_cons, List.not_mem_nil]
  grind

/-- The title in its field: what stands before the first NUL, less the blanks at its end. -/
def IsTitle (field : List UInt8) (title : String) : Prop :=
  ∃ name blanks rest : List UInt8,
    field = name ++ blanks ++ rest ∧ 0 ∉ name ++ blanks ∧ (∀ b ∈ rest.head?, b = 0) ∧
      (∀ b ∈ blanks, Blank b) ∧ (∀ b ∈ name.getLast?, ¬ Blank b) ∧
      title.toList.map Char.toNat = name.map UInt8.toNat

theorem toNat_char (b : UInt8) : (Char.ofNat b.toNat).toNat = b.toNat := by
  have hb := b.toNat_lt
  rw [Char.ofNat, dif_pos (Or.inl (by omega))]
  rfl

theorem toList_titleOf (field : List UInt8) :
    (titleOf field).toList.map Char.toNat =
      ((field.takeWhile (· != 0)).rdropWhile isBlank).map UInt8.toNat := by
  unfold titleOf trimEnd
  rw [String.toList_ofList, List.map_map]
  exact List.map_congr_left fun b _ => toNat_char b

theorem isTitle_titleOf (field : List UInt8) : IsTitle field (titleOf field) := by
  have hnul : ∀ b ∈ field.takeWhile (· != 0), b ≠ 0 := fun b hb => by
    simpa using List.mem_takeWhile_imp hb
  refine ⟨_, (field.takeWhile (· != 0)).rtakeWhile isBlank, field.dropWhile (· != 0),
    ?_, ?_, ?_, ?_, ?_, toList_titleOf field⟩
  · rw [List.rdropWhile_append_rtakeWhile, List.takeWhile_append_dropWhile]
  · rw [List.rdropWhile_append_rtakeWhile]
    exact fun h0 => hnul 0 h0 rfl
  · intro b hb
    have hstop := List.head?_dropWhile_not (· != 0) field
    rw [Option.mem_def.1 hb] at hstop
    simpa using hstop
  · exact fun b hb => (isBlank_iff b).1 (List.mem_rtakeWhile_imp hb)
  · intro b hb hblank
    obtain ⟨hne, rfl⟩ := List.mem_getLast?_eq_getLast hb
    exact List.rdropWhile_last_not isBlank _ hne ((isBlank_iff _).2 hblank)

theorem rdropWhile_blanks {name blanks : List UInt8} (hblanks : ∀ b ∈ blanks, Blank b)
    (hname : ∀ b ∈ name.getLast?, ¬ Blank b) : (name ++ blanks).rdropWhile isBlank = name := by
  have hdrop : (name ++ blanks).rdropWhile isBlank = name.rdropWhile isBlank := by
    unfold List.rdropWhile
    rw [List.reverse_append, List.dropWhile_append_of_pos]
    exact fun b hb => (isBlank_iff b).2 (hblanks b (List.mem_reverse.1 hb))
  rw [hdrop, List.rdropWhile_eq_self_iff]
  exact fun hne hblank => hname _ (List.getLast_mem_getLast? hne) ((isBlank_iff _).1 hblank)

theorem IsTitle.eq {field : List UInt8} {title : String} (h : IsTitle field title) :
    title = titleOf field := by
  obtain ⟨name, blanks, rest, rfl, hnul, hrest, hblanks, hname, htitle⟩ := h
  have hstop : rest.takeWhile (· != 0) = [] := by
    cases rest with
    | nil => rfl
    | cons b rest => simp [hrest b rfl]
  have htake : (name ++ blanks ++ rest).takeWhile (· != 0) = name ++ blanks := by
    rw [List.takeWhile_append_of_pos, hstop, List.append_nil]
    intro b hb
    simpa using fun h0 : b = 0 => hnul (h0 ▸ hb)
  have hnumbers := toList_titleOf (name ++ blanks ++ rest)
  rw [htake, rdropWhile_blanks hblanks hname, ← htitle] at hnumbers
  have hinj : Function.Injective Char.toNat := fun _ _ => Char.toNat_inj.1
  exact String.toList_inj.1 (List.map_injective_iff.2 hinj hnumbers.symm)

example : titleOf [0x54, 0x45, 0x20, 0x54, 0x85, 0xa0, 0x00, 0x41] = "TE T" := by decide

/-! ## Reads -/

/-- The bytes from `low` up to `high`, if the image has them all. -/
def slice? (image : ByteArray) (low high : Nat) : Option (List UInt8) :=
  if high ≤ image.size then some ((image.data.toList.drop low).take (high - low)) else none

/-- As `parse`, with reads that fail outside of the image. -/
def parse? (image : ByteArray) : Option (Except Fault Header) :=
  if image.size < endOffset then some (.error (.imageTooSmall image.size))
  else do
    let field ← slice? image 0x134 0x144
    let romCode ← image[0x148]?
    match romBanks? romCode with
    | none => return .error (.romSize romCode)
    | some romBanks =>
      let ramCode ← image[0x149]?
      match ramBanks? ramCode with
      | none => return .error (.ramSize ramCode)
      | some ramBanks =>
        let kind ← image[0x147]?
        return .ok { title := titleOf field, kind, romBanks, ramBanks }

/-- The sixteen bytes of the title. -/
def field (image : ByteArray) : List UInt8 := (image.data.toList.drop 0x134).take 0x10

def byte {image : ByteArray} (h : 0x150 ≤ image.size) (i : Fin 0x150) : UInt8 :=
  image.get i (Nat.lt_of_lt_of_le i.isLt h)

theorem field_eq {image : ByteArray} (h : 0x150 ≤ image.size) :
    field image = List.ofFn fun i : Fin 16 => byte h ((i.natAdd 0x134).castLE (by decide)) := by
  have hsize : image.data.size = image.size := rfl
  unfold field
  apply List.ext_getElem
  · simp only [List.length_take, List.length_drop, Array.length_toList, List.length_ofFn]
    omega
  · intro i hi hi'
    simp only [List.getElem_take, List.getElem_drop, Array.getElem_toList, List.getElem_ofFn]
    rfl

theorem getElem?_eq {image : ByteArray} (h : 0x150 ≤ image.size) (i : Fin 0x150) :
    image[i.val]? = some (byte h i) :=
  getElem?_pos image i.val (Nat.lt_of_lt_of_le i.isLt h)

theorem slice?_field {image : ByteArray} (h : 0x150 ≤ image.size) :
    slice? image 0x134 0x144 = some (field image) := if_pos (by omega)

theorem parse_of_lt {image : ByteArray} (h : image.size < 0x150) :
    parse image = .error (.imageTooSmall image.size) := dif_pos h

theorem parse_of_le {image : ByteArray} (h : 0x150 ≤ image.size) :
    parse image =
      match romBanks? (byte h 0x148) with
      | none => .error (.romSize (byte h 0x148))
      | some romBanks =>
        match ramBanks? (byte h 0x149) with
        | none => .error (.ramSize (byte h 0x149))
        | some ramBanks =>
          .ok { title := titleOf (field image), kind := byte h 0x147, romBanks, ramBanks } := by
  rw [field_eq h]
  exact dif_neg (Nat.not_lt.2 h)

theorem parse?_eq (image : ByteArray) : parse? image = some (parse image) := by
  by_cases h : image.size < 0x150
  · rw [parse_of_lt h]
    exact if_pos h
  · have hsize : 0x150 ≤ image.size := Nat.not_lt.1 h
    rw [parse_of_le hsize]
    have hrom : image[0x148]? = some (byte hsize 0x148) := getElem?_eq hsize 0x148
    have hram : image[0x149]? = some (byte hsize 0x149) := getElem?_eq hsize 0x149
    have hkind : image[0x147]? = some (byte hsize 0x147) := getElem?_eq hsize 0x147
    refine (if_neg h).trans ?_
    rw [slice?_field hsize, hrom, hram, hkind]
    simp only [Option.bind_eq_bind, Option.bind_some]
    cases romBanks? (byte hsize 0x148) with
    | none => rfl
    | some romBanks => cases ramBanks? (byte hsize 0x149) <;> rfl

theorem parse_of_codes {image : ByteArray} (h : 0x150 ≤ image.size)
    (hrom : RomCode (byte h 0x148)) (hram : RamCode (byte h 0x149)) :
    ∃ romBanks ramBanks, parse image =
      .ok { title := titleOf (field image), kind := byte h 0x147, romBanks, ramBanks } := by
  obtain ⟨romBanks, hromBanks⟩ := exists_romBanks hrom
  obtain ⟨ramBanks, hramBanks⟩ := exists_ramBanks hram
  refine ⟨romBanks, ramBanks, ?_⟩
  rw [parse_of_le h]
  simp only [hromBanks, hramBanks]

def Agree (image image' : ByteArray) : Prop :=
  ∀ i, 0x134 ≤ i → i ≤ 0x149 → image[i]? = image'[i]?

theorem Agree.field_eq {image image' : ByteArray} (h : Agree image image') :
    field image = field image' := by
  apply List.ext_getElem?
  intro i
  unfold field
  rw [List.getElem?_take, List.getElem?_take]
  split
  · rw [List.getElem?_drop, List.getElem?_drop, Array.getElem?_toList, Array.getElem?_toList]
    exact h (0x134 + i) (by omega) (by omega)
  · rfl

theorem Agree.parse_eq {image image' : ByteArray} (h : Agree image image')
    (hsize : 0x150 ≤ image.size) (hsize' : 0x150 ≤ image'.size) : parse image = parse image' := by
  have hbig : ¬ image.size < endOffset := Nat.not_lt.2 hsize
  have hbig' : ¬ image'.size < endOffset := Nat.not_lt.2 hsize'
  have hparse : parse? image = parse? image' := by
    unfold parse?
    rw [if_neg hbig, if_neg hbig', slice?_field hsize, slice?_field hsize', h.field_eq,
      h 0x147 (by decide) (by decide), h 0x148 (by decide) (by decide),
      h 0x149 (by decide) (by decide)]
  rw [parse?_eq, parse?_eq] at hparse
  exact Option.some.inj hparse

end Header

/-! ## Loading -/

/-- What is made of a header, without another look at the image. -/
def build (image : ByteArray) (clockHz : Nat) (header : Header) : Except Fault Loaded :=
  match Kind.ofCode? header.kind with
  | none => .error (.unsupportedKind header.kind)
  | some kind =>
    .ok ⟨header, image, .powerOn kind (header.ramBanks * Ram.bankSize) clockHz⟩

theorem load_eq (image : ByteArray) (clockHz : Nat) :
    load image clockHz = (Header.parse image).bind (build image clockHz) := by
  unfold load build
  cases Header.parse image <;> rfl

/-- As `load`, with reads that fail outside of the image. -/
def load? (image : ByteArray) (clockHz : Nat) : Option (Except Fault Loaded) := do
  let header ← Header.parse? image
  return header.bind (build image clockHz)

theorem load?_eq (image : ByteArray) (clockHz : Nat) :
    load? image clockHz = some (load image clockHz) := by
  rw [load?, Header.parse?_eq, load_eq]
  rfl

open Header (RomCode RamCode IsTitle Agree byte)

/-- Everything that loading asks for. -/
structure Supported (image : ByteArray) : Prop where
  size : 0x150 ≤ image.size
  rom : RomCode (byte size 0x148)
  ram : RamCode (byte size 0x149)
  kind : Kind.Code (byte size 0x147)

/-- The first thing that is missing. -/
inductive Lacks (image : ByteArray) : Fault → Prop
  | size (h : image.size < 0x150) : Lacks image (.imageTooSmall image.size)
  | rom (h : 0x150 ≤ image.size) (hrom : ¬ RomCode (byte h 0x148)) :
    Lacks image (.romSize (byte h 0x148))
  | ram (h : 0x150 ≤ image.size) (hrom : RomCode (byte h 0x148))
      (hram : ¬ RamCode (byte h 0x149)) :
    Lacks image (.ramSize (byte h 0x149))
  | kind (h : 0x150 ≤ image.size) (hrom : RomCode (byte h 0x148)) (hram : RamCode (byte h 0x149))
      (hkind : ¬ Kind.Code (byte h 0x147)) :
    Lacks image (.unsupportedKind (byte h 0x147))

theorem supported_or_lacks (image : ByteArray) : Supported image ∨ ∃ fault, Lacks image fault := by
  by_cases h : image.size < 0x150
  · exact .inr ⟨_, .size h⟩
  have hsize : 0x150 ≤ image.size := Nat.not_lt.1 h
  by_cases hrom : RomCode (byte hsize 0x148)
  · by_cases hram : RamCode (byte hsize 0x149)
    · by_cases hkind : Kind.Code (byte hsize 0x147)
      · exact .inl ⟨hsize, hrom, hram, hkind⟩
      · exact .inr ⟨_, .kind hsize hrom hram hkind⟩
    · exact .inr ⟨_, .ram hsize hrom hram⟩
  · exact .inr ⟨_, .rom hsize hrom⟩

theorem load_of_lacks {image : ByteArray} {fault : Fault} (h : Lacks image fault) (clockHz : Nat) :
    load image clockHz = .error fault := by
  rw [load_eq]
  cases h with
  | size hsize =>
    rw [Header.parse_of_lt hsize]
    rfl
  | rom hsize hrom =>
    rw [Header.parse_of_le hsize]
    simp only [(Header.romBanks?_eq_none_iff _).2 hrom]
    rfl
  | ram hsize hrom hram =>
    obtain ⟨romBanks, hromBanks⟩ := Header.exists_romBanks hrom
    rw [Header.parse_of_le hsize]
    simp only [hromBanks, (Header.ramBanks?_eq_none_iff _).2 hram]
    rfl
  | kind hsize hrom hram hkind =>
    obtain ⟨romBanks, ramBanks, hparse⟩ := Header.parse_of_codes hsize hrom hram
    rw [hparse]
    simp only [Except.bind, build, (Kind.ofCode?_eq_none_iff _).2 hkind]

theorem load_of_supported {image : ByteArray} (h : Supported image) (clockHz : Nat) :
    ∃ l, load image clockHz = .ok l ∧ l.header.title = Header.titleOf (Header.field image) := by
  have hsize := h.size
  obtain ⟨romBanks, ramBanks, hparse⟩ := Header.parse_of_codes hsize h.rom h.ram
  obtain ⟨kind, hkind⟩ := Kind.exists_ofCode h.kind
  rw [load_eq, hparse]
  simp only [Except.bind, build, hkind]
  exact ⟨_, rfl, rfl⟩

/-! ## What is loaded -/

/-- A cartridge as it is loaded: its header, the kind of its controller, the cells of its RAM, and
the bank in place. -/
def Loaded.shape (l : Loaded) : Header × Kind × Nat × Nat :=
  let controller := l.cartridge.controller
  (l.header, controller.kind, controller.ram.cells.size, controller.romBank)

theorem romBank_powerOn (kind : Kind) (ramSize clockHz : Nat) :
    (Controller.powerOn kind ramSize clockHz).romBank = 1 := by
  cases kind <;> rfl

theorem shape_build (image : ByteArray) (clockHz : Nat) (header : Header) :
    (build image clockHz header).map Loaded.shape =
      match Kind.ofCode? header.kind with
      | none => .error (.unsupportedKind header.kind)
      | some kind => .ok (header, kind, kind.ramCells (header.ramBanks * Ram.bankSize), 1) := by
  unfold build
  cases Kind.ofCode? header.kind with
  | none => rfl
  | some kind =>
    have hram := Controller.ram_powerOn kind (header.ramBanks * Ram.bankSize) clockHz
    simp only [Except.map, Loaded.shape, Controller.kind_powerOn, romBank_powerOn, hram, Ram.blank,
      Array.size_replicate]

theorem romBank_of_load {image : ByteArray} {clockHz : Nat} {l : Loaded}
    (h : load image clockHz = .ok l) : l.cartridge.controller.romBank = 1 := by
  obtain ⟨kind, ramSize, hcartridge⟩ := powerOn_of_load h
  rw [hcartridge]
  exact romBank_powerOn kind ramSize clockHz

theorem shape_load_congr {image image' : ByteArray} (h : Agree image image')
    (hsize : 0x150 ≤ image.size) (hsize' : 0x150 ≤ image'.size) (clockHz clockHz' : Nat) :
    (load image clockHz).map Loaded.shape = (load image' clockHz').map Loaded.shape := by
  rw [load_eq, load_eq, h.parse_eq hsize hsize']
  cases Header.parse image' with
  | error fault => rfl
  | ok header =>
    exact (shape_build image clockHz header).trans (shape_build image' clockHz' header).symm

/-- An image is loaded if and only if everything that loading asks for is there, and refused for the
first thing that is missing. It is never read outside of its bytes. The title is that of the title
field and bank 1 is in place. Images that agree on the header come out the same. -/
theorem load_iff_supported (image : ByteArray) (clockHz : Nat) :
    ((∃ l, load image clockHz = .ok l) ↔ Supported image) ∧
    (∀ fault, load image clockHz = .error fault ↔ Lacks image fault) ∧
    load? image clockHz = some (load image clockHz) ∧
    (∀ l, load image clockHz = .ok l → l.cartridge.controller.romBank = 1 ∧
      ∀ title, IsTitle (Header.field image) title ↔ title = l.header.title) ∧
    ∀ image' clockHz', 0x150 ≤ image.size → 0x150 ≤ image'.size → Agree image image' →
      (load image clockHz).map Loaded.shape = (load image' clockHz').map Loaded.shape := by
  have hsupported : ∀ l, load image clockHz = .ok l → Supported image := by
    intro l hl
    rcases supported_or_lacks image with h | ⟨fault, h⟩
    · exact h
    · cases hl.symm.trans (load_of_lacks h clockHz)
  refine ⟨⟨fun ⟨l, hl⟩ => hsupported l hl, fun h => ?_⟩,
    fun fault => ⟨fun hfault => ?_, fun h => load_of_lacks h clockHz⟩, load?_eq image clockHz,
    fun l hl => ⟨romBank_of_load hl, fun title => ?_⟩, ?_⟩
  · obtain ⟨l, hl, -⟩ := load_of_supported h clockHz
    exact ⟨l, hl⟩
  · rcases supported_or_lacks image with h | ⟨fault', h⟩
    · obtain ⟨l, hl, -⟩ := load_of_supported h clockHz
      cases hl.symm.trans hfault
    · cases hfault.symm.trans (load_of_lacks h clockHz)
      exact h
  · obtain ⟨l', hl', htitle⟩ := load_of_supported (hsupported l hl) clockHz
    cases hl.symm.trans hl'
    rw [htitle]
    exact ⟨Header.IsTitle.eq, fun h => h ▸ Header.isTitle_titleOf _⟩
  · exact fun image' clockHz' hsize hsize' h => shape_load_congr h hsize hsize' clockHz clockHz'

def largerImage : ByteArray := ⟨Array.replicate 0x200 0⟩

theorem load_iff_supported_blankImage :
    Supported Machine.blankImage ∧ load ByteArray.empty 0 = .error (.imageTooSmall 0) ∧
      ∃ l, load Machine.blankImage 0 = .ok l ∧ l.header.title = "" ∧
        (load Machine.blankImage 0).map Loaded.shape = (load largerImage 1).map Loaded.shape := by
  have hram : RamCode 0 := UInt8.zero_le
  have hsupported : Supported Machine.blankImage :=
    ⟨by decide +kernel, .inl (by decide +kernel), hram, .inl (by decide +kernel)⟩
  obtain ⟨hload, -, -, htitle, hshape⟩ := load_iff_supported Machine.blankImage 0
  obtain ⟨-, hlacks, -⟩ := load_iff_supported ByteArray.empty 0
  obtain ⟨l, hl⟩ := hload.2 hsupported
  have hempty : IsTitle (Header.field Machine.blankImage) "" :=
    ⟨[], [], _, rfl, by simp, by decide +kernel, by simp, by simp, rfl⟩
  have hagree : Agree Machine.blankImage largerImage := by
    intro i hlow hhigh
    change (Array.replicate 0x150 (0 : UInt8))[i]? = (Array.replicate 0x200 0)[i]?
    rw [Array.getElem?_replicate, Array.getElem?_replicate, if_pos (by omega), if_pos (by omega)]
  refine ⟨hsupported, (hlacks _).2 (.size (by decide)), l, hl, ?_, ?_⟩
  · exact (((htitle l hl).2 "").1 hempty).symm
  · exact hshape largerImage 1 hsupported.size (by decide +kernel) hagree

end Handheld.Cartridge
