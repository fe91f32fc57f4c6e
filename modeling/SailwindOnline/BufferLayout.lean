import Mathlib.Data.List.Forall2
import Mathlib.Order.MinMax
import Mathlib.Order.Nat

/-!
Buffers written from their end. A builder lays texts, vectors and tables out one
after another, each on the alignment it needs; a table leaves out the fields that
hold their default, and names the places of the others in a list that it shares
with an earlier table whenever the two lists agree. Only the sizes are kept.
-/

namespace BufferLayout

inductive Width where
  | byte | short | word | long
deriving DecidableEq

def Width.bytes : Width → Nat
  | .byte => 1
  | .short => 2
  | .word => 4
  | .long => 8

def Width.coarser (first second : Width) : Width := if first.bytes ≤ second.bytes then second else first

/-- The next multiple of the width. -/
def alignUp (width : Width) (position : Nat) : Nat := (position + width.bytes - 1) / width.bytes * width.bytes

theorem alignUp_mono (width : Width) {position limit : Nat} (below : position ≤ limit) :
    alignUp width position ≤ alignUp width limit := by
  cases width <;> simp only [alignUp, Width.bytes] <;> omega

theorem le_alignUp (width : Width) (position : Nat) : position ≤ alignUp width position := by
  cases width <;> simp only [alignUp, Width.bytes] <;> omega

theorem alignUp_le_long (width : Width) (position : Nat) : alignUp width position ≤ alignUp .long position := by
  cases width <;> simp only [alignUp, Width.bytes] <;> omega

/-- The padding depends on the position modulo eight only. -/
theorem alignUp_add (width : Width) (position turns : Nat) :
    alignUp width (position + 8 * turns) = alignUp width position + 8 * turns := by
  cases width <;> simp only [alignUp, Width.bytes] <;> omega

structure Field where
  slot : Nat
  width : Width
  written : Bool

inductive Piece where
  | text (bytes : Nat)
  | vector (count : Nat)
  | table (fields : List Field)

structure Builder where
  used : Nat
  coarsest : Width
  vtables : List (List Nat)

namespace Builder

def start : Builder := ⟨0, .byte, []⟩

def place (size : Nat) (width : Width) (builder : Builder) : Builder :=
  { builder with
    used := alignUp width (builder.used + size)
    coarsest := builder.coarsest.coarser width }

/-- The written fields, in the order they are pushed, with their distance from where the table began. -/
def placeFields (origin : Nat) : List Field → Builder → Builder × List (Nat × Nat)
  | [], builder => (builder, [])
  | field :: rest, builder =>
      if field.written then
        let next := builder.place field.width.bytes field.width
        let tail := placeFields origin rest next
        (tail.1, (field.slot, next.used - origin) :: tail.2)
      else placeFields origin rest builder

/-- The slots up to the last one in use. -/
def slotCount (located : List (Nat × Nat)) : Nat := (located.map fun place => place.1 + 1).foldr max 0

def vtable (object : Nat) (located : List (Nat × Nat)) : List Nat :=
  (4 + 2 * slotCount located) :: object ::
    (List.range (slotCount located)).map fun slot => (located.lookup slot).elim 0 (object - ·)

def table (fields : List Field) (builder : Builder) : Builder :=
  let placed := placeFields builder.used fields builder
  let object := placed.1.place 4 .word
  let entry := vtable (object.used - builder.used) placed.2
  if entry ∈ object.vtables then object
  else { object with used := object.used + 2 * entry.length, vtables := entry :: object.vtables }

def write (builder : Builder) : Piece → Builder
  | .text bytes => (builder.place (bytes + 1) .word).place 4 .word
  | .vector count => (builder.place (4 * count) .word).place 4 .word
  | .table fields => builder.table fields

def writeAll (builder : Builder) (pieces : List Piece) : Builder := pieces.foldl write builder

/-- The root's place and the four letters of the identifier complete the buffer. -/
def finish (builder : Builder) : Nat := alignUp builder.coarsest (builder.used + 8)

end Builder

def size (pieces : List Piece) : Nat := (Builder.start.writeAll pieces).finish

/-! The same pieces further on. -/
section Shift
namespace Builder
variable (turns : Nat)

def shift (builder : Builder) : Builder := { builder with used := builder.used + 8 * turns }

theorem place_shift (size : Nat) (width : Width) (builder : Builder) :
    (builder.shift turns).place size width = (builder.place size width).shift turns := by
  simp only [place, shift, Nat.add_right_comm _ (8 * turns) size, alignUp_add]

theorem placeFields_shift (origin : Nat) (fields : List Field) (builder : Builder) :
    placeFields (origin + 8 * turns) fields (builder.shift turns) =
      ((placeFields origin fields builder).1.shift turns, (placeFields origin fields builder).2) := by
  induction fields generalizing builder with
  | nil => rfl
  | cons field rest ih =>
      simp only [placeFields]
      split
      · rw [place_shift, ih]
        simp only [shift, Nat.add_sub_add_right]
      · exact ih builder

theorem table_shift (fields : List Field) (builder : Builder) :
    (builder.shift turns).table fields = (builder.table fields).shift turns := by
  have placed : placeFields (builder.shift turns).used fields (builder.shift turns) =
      ((placeFields builder.used fields builder).1.shift turns, (placeFields builder.used fields builder).2) :=
    placeFields_shift turns builder.used fields builder
  unfold table
  simp only [placed, place_shift]
  simp only [shift, Nat.add_sub_add_right]
  split
  · rfl
  · simp only [Nat.add_right_comm]

theorem write_shift (builder : Builder) (piece : Piece) :
    (builder.shift turns).write piece = (builder.write piece).shift turns := by
  cases piece with
  | text bytes => simp only [write, place_shift]
  | vector count => simp only [write, place_shift]
  | table fields => exact table_shift turns fields builder

theorem writeAll_shift (builder : Builder) (pieces : List Piece) :
    (builder.shift turns).writeAll pieces = (builder.writeAll pieces).shift turns := by
  induction pieces generalizing builder with
  | nil => rfl
  | cons piece rest ih =>
      simp only [writeAll, List.foldl_cons, write_shift] at ih ⊢
      exact ih _

theorem finish_shift (builder : Builder) : (builder.shift turns).finish = builder.finish + 8 * turns := by
  simp only [finish, shift, Nat.add_right_comm _ (8 * turns) 8, alignUp_add]

end Builder
end Shift

/-! Bounds. -/
section Bounds

/-- Where a list of fields ends at the most. -/
def fieldsCeiling : List Field → Nat → Nat
  | [], limit => limit
  | field :: rest, limit =>
      fieldsCeiling rest (if field.written then alignUp field.width (limit + field.width.bytes) else limit)

def slotCeiling (fields : List Field) : Nat :=
  ((fields.filter (·.written)).map fun field => field.slot + 1).foldr max 0

def Piece.ceiling (limit : Nat) : Piece → Nat
  | .text bytes => alignUp .word (alignUp .word (limit + (bytes + 1)) + 4)
  | .vector count => alignUp .word (alignUp .word (limit + 4 * count) + 4)
  | .table fields => alignUp .word (fieldsCeiling fields limit + 4) + 2 * (slotCeiling fields + 2)

/-- The end of a buffer in which no two tables share their list. -/
def endCeiling (limit : Nat) (pieces : List Piece) : Nat := alignUp .long (pieces.foldl Piece.ceiling limit + 8)

def sizeCeiling (pieces : List Piece) : Nat := endCeiling 0 pieces

structure Field.Within (field larger : Field) : Prop where
  slot : field.slot = larger.slot
  width : field.width = larger.width
  written : field.written = true → larger.written = true

/-- The second piece has all that the first one has. -/
inductive Piece.Within : Piece → Piece → Prop
  | text {bytes more : Nat} (below : bytes ≤ more) : Within (.text bytes) (.text more)
  | vector (count : Nat) : Within (.vector count) (.vector count)
  | table {fields more : List Field} (within : List.Forall₂ Field.Within fields more) :
      Within (.table fields) (.table more)

namespace Builder

theorem placeFields_used_le {fields more : List Field} (within : List.Forall₂ Field.Within fields more)
    (origin : Nat) (builder : Builder) {limit : Nat} (below : builder.used ≤ limit) :
    (placeFields origin fields builder).1.used ≤ fieldsCeiling more limit := by
  induction within generalizing builder limit with
  | nil => exact below
  | @cons field larger rest others same within ih =>
      simp only [placeFields, fieldsCeiling]
      split <;> rename_i written
      · rw [if_pos (same.written written), ← same.width]
        exact ih _ (alignUp_mono _ (by omega))
      · refine ih _ ?_
        split
        · exact below.trans ((Nat.le_add_right _ _).trans (le_alignUp _ _))
        · exact below

theorem slotCount_le {fields more : List Field} (within : List.Forall₂ Field.Within fields more)
    (origin : Nat) (builder : Builder) : slotCount (placeFields origin fields builder).2 ≤ slotCeiling more := by
  induction within generalizing builder with
  | nil => exact le_rfl
  | @cons field larger rest others same within ih =>
      have tail := fun builder => ih builder
      simp only [slotCount, slotCeiling] at tail ⊢
      simp only [placeFields]
      split <;> rename_i written
      · simp only [List.filter_cons, same.written written, if_true, List.map_cons, List.foldr_cons, same.slot]
        exact max_le_max le_rfl (tail _)
      · refine (tail builder).trans ?_
        rw [List.filter_cons]
        split
        · exact le_max_right _ _
        · exact le_rfl

theorem vtable_length (object : Nat) (located : List (Nat × Nat)) :
    (vtable object located).length = slotCount located + 2 := by
  simp [vtable]

theorem write_used_le {piece larger : Piece} (within : piece.Within larger) (builder : Builder) {limit : Nat}
    (below : builder.used ≤ limit) : (builder.write piece).used ≤ larger.ceiling limit := by
  cases within with
  | text more => exact alignUp_mono _ (Nat.add_le_add_right (alignUp_mono _ (by omega)) 4)
  | vector count => exact alignUp_mono _ (Nat.add_le_add_right (alignUp_mono _ (by omega)) 4)
  | @table fields more within =>
      have placed := placeFields_used_le within builder.used builder below
      have slots := slotCount_le within builder.used builder
      have object := alignUp_mono .word (Nat.add_le_add_right placed 4)
      simp only [write, table, Piece.ceiling]
      split
      · exact object.trans (Nat.le_add_right _ _)
      · rw [vtable_length]
        exact Nat.add_le_add object (by omega)

theorem writeAll_used_le {pieces larger : List Piece} (within : List.Forall₂ Piece.Within pieces larger)
    (builder : Builder) {limit : Nat} (below : builder.used ≤ limit) :
    (builder.writeAll pieces).used ≤ larger.foldl Piece.ceiling limit := by
  induction within generalizing builder limit with
  | nil => exact below
  | cons first rest ih => exact ih _ (write_used_le first builder below)

end Builder

/-- A buffer with less in it is no longer than one in which nothing is left out and nothing is shared. -/
theorem size_le {pieces larger : List Piece} (within : List.Forall₂ Piece.Within pieces larger) :
    size pieces ≤ sizeCeiling larger :=
  (alignUp_le_long _ _).trans (alignUp_mono _ (Nat.add_le_add_right
    (Builder.writeAll_used_le within .start le_rfl) 8))

/-! What is in a buffer is in its size. -/

namespace Builder

theorem le_place (size : Nat) (width : Width) (builder : Builder) :
    builder.used + size ≤ (builder.place size width).used :=
  le_alignUp _ _

theorem le_placeFields (origin : Nat) (fields : List Field) (builder : Builder) :
    builder.used ≤ (placeFields origin fields builder).1.used := by
  induction fields generalizing builder with
  | nil => exact le_rfl
  | cons field rest ih =>
      simp only [placeFields]
      split
      · exact ((Nat.le_add_right _ _).trans (le_place _ _ builder)).trans (ih _)
      · exact ih builder

theorem le_write (builder : Builder) (piece : Piece) : builder.used ≤ (builder.write piece).used := by
  have twice : ∀ size, builder.used ≤ ((builder.place size .word).place 4 .word).used := fun size => by
    have first := le_place size .word builder
    have second := le_place 4 .word (builder.place size .word)
    omega
  cases piece with
  | text bytes => exact twice _
  | vector count => exact twice _
  | table fields =>
      have placed := le_placeFields builder.used fields builder
      have object := le_place 4 .word (placeFields builder.used fields builder).1
      simp only [write, table]
      split
      · omega
      · simp only
        omega

theorem le_writeAll (builder : Builder) (pieces : List Piece) : builder.used ≤ (builder.writeAll pieces).used := by
  induction pieces generalizing builder with
  | nil => exact le_rfl
  | cons piece rest ih => exact (le_write builder piece).trans (ih _)

theorem text_le_writeAll {pieces : List Piece} {bytes : Nat} (member : .text bytes ∈ pieces) (builder : Builder) :
    bytes ≤ (builder.writeAll pieces).used := by
  induction pieces generalizing builder with
  | nil => cases member
  | cons piece rest ih =>
      rcases List.mem_cons.mp member with rfl | later
      · have first := le_place (bytes + 1) .word builder
        have second := le_place 4 .word (builder.place (bytes + 1) .word)
        refine le_trans ?_ (le_writeAll (builder.write (.text bytes)) rest)
        simp only [write]
        omega
      · exact ih later _

end Builder

/-- A buffer is at least as long as each of its texts. -/
theorem text_le_size {pieces : List Piece} {bytes : Nat} (member : .text bytes ∈ pieces) : bytes ≤ size pieces :=
  (Builder.text_le_writeAll member .start).trans ((Nat.le_add_right _ 8).trans (le_alignUp _ _))

/-! The bound further on. -/

theorem fieldsCeiling_add (fields : List Field) (limit turns : Nat) :
    fieldsCeiling fields (limit + 8 * turns) = fieldsCeiling fields limit + 8 * turns := by
  induction fields generalizing limit with
  | nil => rfl
  | cons field rest ih =>
      simp only [fieldsCeiling]
      split
      · rw [Nat.add_right_comm, alignUp_add, ih]
      · exact ih limit

theorem Piece.ceiling_add (piece : Piece) (limit turns : Nat) :
    piece.ceiling (limit + 8 * turns) = piece.ceiling limit + 8 * turns := by
  cases piece with
  | text bytes => simp only [ceiling, Nat.add_right_comm _ (8 * turns), alignUp_add]
  | vector count => simp only [ceiling, Nat.add_right_comm _ (8 * turns), alignUp_add]
  | table fields => simp only [ceiling, fieldsCeiling_add, Nat.add_right_comm _ (8 * turns), alignUp_add]

theorem endCeiling_add (pieces : List Piece) (limit turns : Nat) :
    endCeiling (limit + 8 * turns) pieces = endCeiling limit pieces + 8 * turns := by
  have ends : pieces.foldl Piece.ceiling (limit + 8 * turns) = pieces.foldl Piece.ceiling limit + 8 * turns := by
    induction pieces generalizing limit with
    | nil => rfl
    | cons piece rest ih => simp only [List.foldl_cons, Piece.ceiling_add, ih]
  rw [endCeiling, ends, Nat.add_right_comm, alignUp_add]
  rfl

/-- Whether a buffer reaches the bound shows in the first eight positions. -/
theorem finish_eq_ceiling {pieces larger : List Piece} {coarsest : Width} {vtables : List (List Nat)} (position : Nat)
    (reached : (Builder.writeAll ⟨position % 8, coarsest, vtables⟩ pieces).finish = endCeiling (position % 8) larger) :
    (Builder.writeAll ⟨position, coarsest, vtables⟩ pieces).finish = endCeiling position larger := by
  have place : position % 8 + 8 * (position / 8) = position := Nat.mod_add_div position 8
  have moved : (⟨position, coarsest, vtables⟩ : Builder) =
      (Builder.shift (position / 8) ⟨position % 8, coarsest, vtables⟩) := by
    rw [Builder.shift, place]
  rw [moved, Builder.writeAll_shift, Builder.finish_shift, reached, ← endCeiling_add, place]

/-- Two texts at the front leave two positions to look at. -/
theorem size_eq_ceiling {pieces larger : List Piece} (first second : Nat)
    (reached : ∀ position ∈ [0, 4],
      (Builder.writeAll ⟨position, .word, []⟩ pieces).finish = endCeiling position larger) :
    size (.text first :: .text second :: pieces) = sizeCeiling (.text first :: .text second :: larger) := by
  have texts : (Builder.start.write (.text first)).write (.text second) =
      ⟨(Piece.text second).ceiling ((Piece.text first).ceiling 0), .word, []⟩ := rfl
  have aligned : (Piece.text second).ceiling ((Piece.text first).ceiling 0) % 8 ∈ [0, 4] := by
    simp only [Piece.ceiling, alignUp, Width.bytes, List.mem_cons, List.not_mem_nil, or_false]
    omega
  have whole := finish_eq_ceiling _ (reached _ aligned)
  rw [← texts] at whole
  exact whole

end Bounds
end BufferLayout
