import Scenario.Image
import Scenario.Proofs.Bytes

/-!
# Scenario.Proofs.Sections

The sections of a file, said without the loader and without the writer:
`Image.FileLaid` relates an image to the file that holds it.  Loading succeeds
exactly on such files (`Image.load_eq_ok_iff`), and writing gives them back
(`Image.FileLaid.write`), so what was loaded can be written and loaded again.

Nothing in the relation speaks of the contents of code and pool.  An image
whose code keeps its length stays loadable whatever is done to its code and
its pool (`Image.FileLaid.revised`).

An image lies in a file exactly if it is well formed (`Image.wellFormed_iff`),
so loading and writing are inverse to each other between the files whose
length suffices for what their header says and the well-formed images
(`Image.load_write`).
-/

namespace Scenario

/-! ## labels -/

/-- The pairs of a label section. -/
inductive LabelsLaid : List Label → Bytes → Prop where
  | nil : LabelsLaid [] []
  | cons {labels : List Label} {bs : Bytes} (a b c d : UInt8) (rest : LabelsLaid labels bs) :
      LabelsLaid (⟨Bytes.word a b, Bytes.word c d⟩ :: labels) (a :: b :: c :: d :: bs)

namespace LabelsLaid

variable {labels : List Label} {bs : Bytes}

theorem length_eq (h : LabelsLaid labels bs) : bs.length = 4 * labels.length := by
  induction h with
  | nil => rfl
  | cons a b c d rest ih =>
      simp only [List.length_cons]
      omega

theorem readLabels_eq (h : LabelsLaid labels bs) : Image.readLabels bs = labels := by
  induction h with
  | nil => rfl
  | cons a b c d rest ih => rw [Image.readLabels, ih]

theorem write (h : LabelsLaid labels bs) :
    ∃ parts, labels.mapM Image.writeLabel = .ok parts ∧ parts.flatten = bs := by
  induction h with
  | nil => exact ⟨[], rfl, rfl⟩
  | cons a b c d rest ih =>
      obtain ⟨parts, hparts, rfl⟩ := ih
      refine ⟨[a, b, c, d] :: parts, ?_, rfl⟩
      rw [List.mapM_cons, hparts, Image.writeLabel, Bytes.pack_word, Bytes.pack_word]
      rfl

/-- Bytes in whole groups of four are the labels that are read from them. -/
theorem of_length (n : Nat) : ∀ {bs : Bytes}, bs.length = 4 * n →
    LabelsLaid (Image.readLabels bs) bs := by
  induction n with
  | zero =>
      intro bs h
      obtain rfl := List.length_eq_zero_iff.mp h
      exact .nil
  | succ n ih =>
      intro bs h
      match bs, h with
      | a :: b :: c :: d :: rest, h =>
          simp only [List.length_cons] at h
          exact .cons a b c d (ih (by omega))

end LabelsLaid

/-- A pair of values of 16 bits. -/
def Label.Fits (label : Label) : Prop :=
  (0 ≤ label.first ∧ label.first < 65536) ∧ 0 ≤ label.second ∧ label.second < 65536

/-- Pairs that fit can be laid out. -/
theorem LabelsLaid.exists_of_fits {labels : List Label} (h : ∀ label ∈ labels, label.Fits) :
    ∃ bs, LabelsLaid labels bs := by
  induction labels with
  | nil => exact ⟨[], .nil⟩
  | cons label labels ih =>
      obtain ⟨bs, hbs⟩ := ih fun l hl => h l (List.mem_cons_of_mem _ hl)
      obtain ⟨hfirst, hsecond⟩ := h label List.mem_cons_self
      obtain ⟨a, b, hab⟩ := Bytes.exists_word_of_lt hfirst.1 hfirst.2
      obtain ⟨c, d, hcd⟩ := Bytes.exists_word_of_lt hsecond.1 hsecond.2
      obtain ⟨first, second⟩ := label
      obtain rfl : first = Bytes.word a b := hab
      obtain rfl : second = Bytes.word c d := hcd
      exact ⟨_, .cons a b c d hbs⟩

/-- Pairs that are laid out fit. -/
theorem LabelsLaid.fits {labels : List Label} {bs : Bytes} (h : LabelsLaid labels bs) :
    ∀ label ∈ labels, label.Fits := by
  induction h with
  | nil => simp
  | cons a b c d rest ih =>
      have hfirst := Bytes.word_lt a b
      have hsecond := Bytes.word_lt c d
      rw [List.forall_mem_cons]
      refine ⟨?_, ih⟩
      dsimp only [Label.Fits]
      omega

/-! ## files -/

namespace Image

/-- An image lies in a file, its label section in the bytes `bs`. -/
structure FileLaid (image : Image) (bs data : Bytes) : Prop where
  header : image.header.length = headerSize
  signature : image.header.field 0 4 = 0
  labelCount : image.labels.length = image.header.field labelLengthOffset 2 / 4
  codeLength : image.code.length = image.header.field codeLengthOffset 2
  codeBase : image.codeBase = headerSize + 4 * image.labels.length
  labels : LabelsLaid image.labels bs
  data : data = image.header ++ (bs ++ (image.code ++ image.pool))

namespace FileLaid

variable {image : Image} {bs data : Bytes}

/-- An image is written as the file it lies in. -/
theorem write (h : image.FileLaid bs data) : image.write = .ok data := by
  obtain ⟨parts, hparts, hbs⟩ := h.labels.write
  rw [Image.write, if_neg fun hne => hne h.header, hparts, h.data, ← hbs]
  simp only [bind, Except.bind, pure, Except.pure, List.append_assoc]

/-- An image is loaded from the file it lies in. -/
theorem load (h : image.FileLaid bs data) : Image.load data = .ok image := by
  have hlength : bs.length = 4 * (image.header.field labelLengthOffset 2 / 4) := by
    rw [h.labels.length_eq, h.labelCount]
  have hheader : data.take headerSize = image.header := by rw [h.data, ← h.header, List.take_left]
  have hbody : data.drop headerSize = bs ++ (image.code ++ image.pool) := by
    rw [h.data, ← h.header, List.drop_left]
  rw [Image.load, hheader, hbody, ← hlength, ← h.codeLength]
  simp only [List.take_left, List.drop_left, List.length_append, h.labels.readLabels_eq]
  rw [if_neg (by have := h.header; omega), if_neg fun hne => hne h.signature, if_neg (by omega),
    if_neg (by omega), h.labels.length_eq]
  have hbase : ((headerSize : Int) + ((4 * image.labels.length : Nat) : Int)) = image.codeBase := by
    rw [h.codeBase, Int.natCast_mul]
    rfl
  rw [hbase]

/-- Code and pool can be exchanged; the code must keep its length. -/
theorem revised (h : image.FileLaid bs data) {image' : Image}
    (hheader : image'.header = image.header) (hlabels : image'.labels = image.labels)
    (hbase : image'.codeBase = image.codeBase) (hlength : image'.code.length = image.code.length) :
    image'.FileLaid bs (image'.header ++ (bs ++ (image'.code ++ image'.pool))) where
  header := hheader ▸ h.header
  signature := hheader ▸ h.signature
  labelCount := by rw [hlabels, hheader, h.labelCount]
  codeLength := by rw [hlength, hheader, h.codeLength]
  codeBase := by rw [hbase, hlabels, h.codeBase]
  labels := hlabels ▸ h.labels
  data := rfl

end FileLaid

/-- **Loading** succeeds exactly on the files that images lie in. -/
theorem load_eq_ok_iff {image : Image} {data : Bytes} :
    load data = .ok image ↔ ∃ bs, image.FileLaid bs data := by
  refine ⟨fun h => ?_, fun ⟨bs, h⟩ => h.load⟩
  rw [load] at h
  split at h
  · cases h
  split at h
  · cases h
  split at h
  · cases h
  split at h
  · cases h
  next hheader hsignature hbody hrest =>
  obtain rfl := Except.ok.inj h
  have hlabels := @LabelsLaid.of_length (Bytes.field (data.take headerSize) labelLengthOffset 2 / 4)
    ((data.drop headerSize).take
      (4 * (Bytes.field (data.take headerSize) labelLengthOffset 2 / 4)))
    (by rw [List.length_take, Nat.min_eq_left (Nat.not_lt.mp hbody)])
  have hcount := hlabels.length_eq
  rw [List.length_take, Nat.min_eq_left (Nat.not_lt.mp hbody)] at hcount
  refine ⟨_, ?_, Decidable.not_not.mp hsignature, ?_, ?_, ?_, hlabels, ?_⟩
  · rw [List.length_take] at hheader ⊢
    omega
  · dsimp only
    omega
  · rw [List.length_take, Nat.min_eq_left (Nat.not_lt.mp hrest)]
  · dsimp only
    omega
  · simp only [List.take_append_drop]

/-! ## the two inverse to each other -/

/-- An image whose sections are as its header says. -/
structure WellFormed (image : Image) : Prop where
  header : image.header.length = headerSize
  signature : image.header.take 4 = [0, 0, 0, 0]
  labelCount : image.labels.length = image.labelLength / 4
  labels : ∀ label ∈ image.labels, label.Fits
  codeLength : image.code.length = image.codeLength
  codeBase : image.codeBase = headerSize + 4 * image.labels.length

/-- The signature is worth zero exactly if its bytes are. -/
theorem signature_eq_zero_iff {data : Bytes} (h : 4 ≤ data.length) :
    data.field 0 4 = 0 ↔ data.take 4 = [0, 0, 0, 0] := by
  have hlength : (data.take 4).length = 4 := by
    rw [List.length_take]
    omega
  have hzeros : data.take 4 = [0, 0, 0, 0] ↔ data.take 4 = List.replicate 4 0 := Iff.rfl
  rw [Bytes.field, List.drop_zero, Bytes.toNat_eq_zero_iff, hzeros, List.eq_replicate_iff]
  exact ⟨fun h => ⟨hlength, h⟩, fun h => h.2⟩

section Header

variable {image : Image} (h : image.header.length = headerSize)
include h

theorem labelLength_eq_field : image.labelLength = image.header.field labelLengthOffset 2 := by
  rw [labelLength]
  exact congrArg (Option.getD · 0) (Bytes.readUInt?_eq_field _ (by rw [h]; decide))

theorem codeLength_eq_field : image.codeLength = image.header.field codeLengthOffset 2 := by
  rw [codeLength]
  exact congrArg (Option.getD · 0) (Bytes.readUInt?_eq_field _ (by rw [h]; decide))

end Header

/-- An image lies in a file exactly if it is well formed. -/
theorem wellFormed_iff {image : Image} :
    image.WellFormed ↔ ∃ bs data, image.FileLaid bs data := by
  constructor
  · intro h
    obtain ⟨bs, hbs⟩ := LabelsLaid.exists_of_fits h.labels
    have hsignature := (signature_eq_zero_iff (by rw [h.header]; decide)).mpr h.signature
    refine ⟨bs, _, h.header, hsignature, ?_, ?_, h.codeBase, hbs, rfl⟩
    · rw [h.labelCount, labelLength_eq_field h.header]
    · rw [h.codeLength, codeLength_eq_field h.header]
  · rintro ⟨bs, data, h⟩
    have hsignature := (signature_eq_zero_iff (by rw [h.header]; decide)).mp h.signature
    refine ⟨h.header, hsignature, ?_, h.labels.fits, ?_, h.codeBase⟩
    · rw [h.labelCount, labelLength_eq_field h.header]
    · rw [h.codeLength, codeLength_eq_field h.header]

/-- A well-formed image can be written, and is what its file is loaded as. -/
theorem WellFormed.exists_write {image : Image} (h : image.WellFormed) :
    ∃ data, image.write = .ok data ∧ load data = .ok image := by
  obtain ⟨bs, data, hlaid⟩ := wellFormed_iff.mp h
  exact ⟨data, hlaid.write, hlaid.load⟩

/-- What is loaded is well formed and is written as the file it came from;
nothing else is. -/
theorem load_eq_ok_iff_write {image : Image} {data : Bytes} :
    load data = .ok image ↔ image.WellFormed ∧ image.write = .ok data := by
  constructor
  · intro h
    obtain ⟨bs, hlaid⟩ := load_eq_ok_iff.mp h
    exact ⟨wellFormed_iff.mpr ⟨bs, data, hlaid⟩, hlaid.write⟩
  · rintro ⟨h, hwrite⟩
    obtain ⟨file, hfile, hload⟩ := h.exists_write
    obtain rfl : data = file := Except.ok.inj (hwrite.symm.trans hfile)
    exact hload

/-- A file is loaded exactly if it has a header with a zero signature and is
long enough for the label pairs and the code that the header speaks of. -/
theorem exists_load_iff {data : Bytes} :
    (∃ image, load data = .ok image) ↔
      headerSize ≤ data.length ∧ data.take 4 = [0, 0, 0, 0] ∧
        headerSize + 4 * (data.field labelLengthOffset 2 / 4) + data.field codeLengthOffset 2 ≤
          data.length := by
  have hlabels := data.field_take (show labelLengthOffset + 2 ≤ headerSize by decide)
  have hcode := data.field_take (show codeLengthOffset + 2 ≤ headerSize by decide)
  have hsignature := data.field_take (show 0 + 4 ≤ headerSize by decide)
  simp only [load, hlabels, hcode, hsignature, List.length_drop, List.length_take]
  have hfour : 4 ≤ headerSize := by decide
  constructor
  · rintro ⟨image, h⟩
    split at h
    · cases h
    split at h
    · cases h
    split at h
    · cases h
    split at h
    · cases h
    next hheader hzero hbody hrest =>
    have hlength : headerSize ≤ data.length := by omega
    refine ⟨hlength, ?_, by omega⟩
    exact (signature_eq_zero_iff (by omega)).mp (Decidable.not_not.mp hzero)
  · rintro ⟨hlength, hzero, hfits⟩
    have hzero' := (signature_eq_zero_iff (by omega)).mpr hzero
    rw [if_neg (by omega), if_neg fun hne => hne hzero', if_neg (by omega), if_neg (by omega)]
    exact ⟨_, rfl⟩

/-- **Loading and writing are inverse.**  A file is loaded exactly if its
header fits and its length suffices; what was loaded is written as that file,
also where the label section has bytes behind its last pair; and a well-formed
image is written as a file that is loaded as that image. -/
theorem load_write (data : Bytes) (image : Image) :
    ((∃ loaded, load data = .ok loaded) ↔
      12 ≤ data.length ∧ data.take 4 = [0, 0, 0, 0] ∧
        12 + 4 * (data.field 4 2 / 4) + data.field 6 2 ≤ data.length) ∧
    (load data = .ok image → image.write = .ok data) ∧
    (image.WellFormed → ∃ file, image.write = .ok file ∧ load file = .ok image) := by
  refine ⟨exists_load_iff, fun h => ?_, fun h => h.exists_write⟩
  exact (load_eq_ok_iff_write.mp h).2

/-- A file whose label section has two bytes behind its only pair; they belong
to the code. -/
def unevenFile : Bytes := [
  0x00, 0x00, 0x00, 0x00, 0x06, 0x00, 0x03, 0x00, 0x00, 0x00, 0x00, 0x00,
  0x01, 0x00, 0xFF, 0xFF,
  0xAA, 0xBB, 0x0D,
  0x41, 0x00]

/-- The image of that file. -/
def uneven : Image :=
  ⟨unevenFile.take 12, [⟨1, 65535⟩], [0xAA, 0xBB, 0x0D], 16, [0x41, 0x00]⟩

theorem load_write_uneven :
    load unevenFile = .ok uneven ∧ uneven.write = .ok unevenFile ∧ uneven.WellFormed ∧
      ∃ file, uneven.write = .ok file ∧ load file = .ok uneven := by
  have hload : load unevenFile = .ok uneven := rfl
  have hformed : uneven.WellFormed := (load_eq_ok_iff_write.mp hload).1
  obtain ⟨-, hwrite, hback⟩ := load_write unevenFile uneven
  exact ⟨hload, hwrite hload, hformed, hback hformed⟩

end Image

end Scenario
