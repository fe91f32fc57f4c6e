import SailwindOnline.ComparisonSort
import SailwindOnline.SelfDelimiting

/-!
The serializer of the surface manifest. A string is its UTF-16 units, null is
`none`, and the preimage of the compatibility token is the text that `serialize`
returns. The text tells the surface it came from, whatever its strings contain;
it tells the order its members came in exactly where members that differ only in
`static` meet.
-/

namespace SailwindOnline.ApiGen

open SelfDelimiting

abbrev Text := List UInt16

/-- The units of a literal of the source. -/
def units (literal : String) : Text := literal.toList.map fun char => char.toNat.toUInt16

def version : String := "0.1.0"
def name : String := "Sailwind.ApiGen"
def stamp : Text := units (name ++ "/" ++ version)

structure SurfaceHeader where
  assemblyMvid : Option Text
  gameBuildId : Option Text

structure SurfaceEntry where
  type : Option Text
  member : Option Text
  kind : Option Text
  static : Bool
  signature : Option Text

structure SurfaceDoc where
  header : SurfaceHeader
  members : List SurfaceEntry

namespace CanonicalJson

def nl : Text := units "\n"

def hexDigit (digit : Nat) : UInt16 := if digit < 10 then (0x30 + digit).toUInt16 else (0x57 + digit).toUInt16

/-- Four lower-case hexadecimal digits. -/
def x4 (ch : UInt16) : Text :=
  [hexDigit (ch.toNat / 4096 % 16), hexDigit (ch.toNat / 256 % 16), hexDigit (ch.toNat / 16 % 16),
    hexDigit (ch.toNat % 16)]

def escape (ch : UInt16) : Text :=
  if ch = 0x22 then units "\\\""
  else if ch = 0x5c then units "\\\\"
  else if ch = 0x08 then units "\\b"
  else if ch = 0x0c then units "\\f"
  else if ch = 0x0a then units "\\n"
  else if ch = 0x0d then units "\\r"
  else if ch = 0x09 then units "\\t"
  else if ch < 0x20 then units "\\u" ++ x4 ch
  else [ch]

def str : Option Text → Text
  | none => units "\"\""
  | some s => units "\"" ++ s.flatMap escape ++ units "\""

/-- The sign of the ordinal comparison: null is before every string, a prefix before what extends it. -/
def compareOrdinal (left right : Option Text) : Ordering := compare left right

def compareEntries (a b : SurfaceEntry) : Ordering :=
  (compareOrdinal a.type b.type).then ((compareOrdinal a.member b.member).then
    ((compareOrdinal a.kind b.kind).then (compareOrdinal a.signature b.signature)))

def sortMembers (sorter : ListSort) (members : List SurfaceEntry) : List SurfaceEntry :=
  sorter.sort compareEntries members

def entryText (m : SurfaceEntry) : Text :=
  units "    \x7b" ++ nl ++
  units "      \"kind\": " ++ str m.kind ++ units "," ++ nl ++
  units "      \"member\": " ++ str m.member ++ units "," ++ nl ++
  units "      \"signature\": " ++ str m.signature ++ units "," ++ nl ++
  units "      \"static\": " ++ units (if m.static then "true" else "false") ++ units "," ++ nl ++
  units "      \"type\": " ++ str m.type ++ nl ++
  units "    \x7d"

/-- The members section of the text, for members in order. -/
def membersText (members : List SurfaceEntry) : Text :=
  if members.length = 0 then units "  \"members\": []" ++ nl
  else
    units "  \"members\": [" ++ nl ++
    separated entryText (units "," ++ nl) (units "" ++ nl) members ++
    units "  ]" ++ nl

def serialize (sorter : ListSort) (doc : SurfaceDoc) : Text :=
  units "\x7b" ++ nl ++
  units "  \"header\": \x7b" ++ nl ++
  units "    \"assemblyMvid\": " ++ str doc.header.assemblyMvid ++ units "," ++ nl ++
  units "    \"gameBuildId\": " ++ str doc.header.gameBuildId ++ units "," ++ nl ++
  units "    \"tool\": " ++ str (some stamp) ++ nl ++
  units "  \x7d," ++ nl ++
  membersText (sortMembers sorter doc.members) ++
  units "\x7d" ++ nl

section Strings

/-- The units that are written with a backslash. -/
def escapedUnits : List UInt16 := [0x22, 0x5c] ++ (List.range 0x20).map Nat.toUInt16

theorem escape_raw {ch : UInt16} (raw : ch ∉ escapedUnits) : escape ch = [ch] := by
  simp only [escapedUnits, List.mem_append, List.mem_map, List.mem_range, List.mem_cons, List.not_mem_nil,
    not_or, not_exists, not_and] at raw
  obtain ⟨⟨quote, slash, -⟩, control⟩ := raw
  have high : ¬ ch < 0x20 := by
    intro low
    exact control ch.toNat (UInt16.lt_iff_toNat_lt.mp low) (by simp)
  have apart : ∀ unit : UInt16, unit < 0x20 → ch ≠ unit := by
    rintro unit low rfl
    exact high low
  simp only [escape, quote, slash, apart 0x08 (by decide), apart 0x0c (by decide), apart 0x0a (by decide),
    apart 0x0d (by decide), apart 0x09 (by decide), high, if_false]

-- The listed units are run through, not all the units there are.
theorem escape_special : ∀ ch ∈ escapedUnits, (escape ch).head? = some 0x5c ∧ 2 ≤ (escape ch).length := by
  have listed : (escapedUnits.all fun ch =>
      (escape ch).head? = some 0x5c ∧ 2 ≤ (escape ch).length) = true := by decide +kernel
  intro ch member
  exact of_decide_eq_true (List.all_eq_true.mp listed ch member)

theorem escape_apart : ∀ left ∈ escapedUnits, ∀ right ∈ escapedUnits, escape left <+: escape right → left = right := by
  have listed : (escapedUnits.all fun left => escapedUnits.all fun right =>
      escape left <+: escape right → left = right) = true := by decide +kernel
  intro left inLeft right inRight
  have row := List.all_eq_true.mp listed left inLeft
  exact of_decide_eq_true (List.all_eq_true.mp row right inRight)

theorem escape_separate (left right : UInt16) (starts : escape left <+: escape right) : left = right := by
  by_cases leftRaw : left ∈ escapedUnits
  · by_cases rightRaw : right ∈ escapedUnits
    · exact escape_apart left leftRaw right rightRaw starts
    · -- An escape is longer than a unit written as it is.
      have long := (escape_special left leftRaw).2
      have short := starts.length_le
      rw [escape_raw rightRaw, List.length_singleton] at short
      omega
  · rw [escape_raw leftRaw] at starts
    have head : (escape right).head? = some left := by
      obtain ⟨tail, whole⟩ := starts
      rw [← whole]
      rfl
    by_cases rightRaw : right ∈ escapedUnits
    · rw [(escape_special right rightRaw).1] at head
      have slash : left = 0x5c := (Option.some.inj head).symm
      exact absurd (slash ▸ by decide) leftRaw
    · rw [escape_raw rightRaw] at head
      exact (Option.some.inj head).symm

theorem escape_closed (ch : UInt16) (rest tail : Text) : escape ch ++ rest ≠ 0x22 :: tail := by
  intro same
  by_cases special : ch ∈ escapedUnits
  · have head := congrArg List.head? same
    obtain ⟨starts, long⟩ := escape_special ch special
    rw [List.head?_append, starts] at head
    simp at head
  · rw [escape_raw special] at same
    have quote : ch = 0x22 := (List.cons.inj same).1
    exact special (quote ▸ by decide)

theorem str_delimited : Delimited str fun s => s.getD [] := by
  have quoted : ∀ s, str s = units "\"" ++ ((s.getD []).flatMap escape ++ [0x22]) := by
    intro s
    cases s with
    | none => decide
    | some s => simp only [str, Option.getD_some, List.append_assoc]; rfl
  intro left right rest tail same
  rw [quoted, quoted, List.append_assoc (units _), List.append_assoc (units _)] at same
  obtain ⟨text, same⟩ := (delimited_of_separate escape_separate).terminated escape_closed _ _ _ _
    (List.append_cancel_left same)
  rw [List.map_id, List.map_id] at text
  exact ⟨text, same⟩

theorem static_delimited : Delimited (fun static : Bool => units (if static then "true" else "false")) id := by
  apply delimited_of_separate
  decide

end Strings

section Surfaces

/-- What the text shows of a member: null counts as the empty string. -/
def content (m : SurfaceEntry) : Text × Text × Text × Bool × Text :=
  (m.type.getD [], m.member.getD [], m.kind.getD [], m.static, m.signature.getD [])

theorem entry_delimited : Delimited entryText content := by
  intro left right rest tail same
  unfold entryText at same
  simp only [List.append_assoc, List.append_cancel_left_eq] at same
  obtain ⟨kind, same⟩ := str_delimited _ _ _ _ same
  simp only [List.append_cancel_left_eq] at same
  obtain ⟨member, same⟩ := str_delimited _ _ _ _ same
  simp only [List.append_cancel_left_eq] at same
  obtain ⟨signature, same⟩ := str_delimited _ _ _ _ same
  simp only [List.append_cancel_left_eq] at same
  obtain ⟨static, same⟩ := static_delimited _ _ _ _ same
  simp only [List.append_cancel_left_eq] at same
  obtain ⟨type, same⟩ := str_delimited _ _ _ _ same
  simp only [List.append_cancel_left_eq] at same
  have static : left.static = right.static := static
  exact ⟨by simp only [content, kind, member, signature, static, type], same⟩

theorem members_delimited : Delimited membersText (List.map content) := by
  intro left right rest tail same
  have bracket : ∀ (rest tail : Text), units "  \"members\": []" ++ rest ≠ units "  \"members\": [" ++ (nl ++ tail) := by
    intro rest tail equal
    have parted := congrArg (fun text : Text => text[14]?) equal
    exact absurd parted (by simp [units, nl])
  simp only [membersText] at same
  split at same <;> split at same
  · rename_i none others
    rw [List.length_eq_zero_iff.mp none, List.length_eq_zero_iff.mp others]
    exact ⟨rfl, List.append_cancel_left same⟩
  · simp only [List.append_assoc] at same
    exact absurd same (bracket _ _)
  · simp only [List.append_assoc] at same
    exact absurd same.symm (bracket _ _)
  · rename_i some others
    simp only [List.append_assoc, List.append_cancel_left_eq] at same
    have apart : ∀ rest tail, units "," ++ nl ++ rest ≠ units "" ++ nl ++ tail := by
      intro rest tail equal
      have head := congrArg List.head? equal
      simp [units, nl] at head
    obtain ⟨contents, same⟩ := entry_delimited.separated apart (fun empty => some (by rw [empty]; rfl))
      (fun empty => others (by rw [empty]; rfl)) same
    exact ⟨contents, List.append_cancel_left (List.append_cancel_left same)⟩

/-- The text shows the header and the members in the order they were sorted into. -/
theorem serialize_shows {sorter : ListSort} {doc other : SurfaceDoc}
    (same : serialize sorter doc = serialize sorter other) :
    doc.header.assemblyMvid.getD [] = other.header.assemblyMvid.getD [] ∧
      doc.header.gameBuildId.getD [] = other.header.gameBuildId.getD [] ∧
      (sortMembers sorter doc.members).map content = (sortMembers sorter other.members).map content := by
  unfold serialize at same
  simp only [List.append_assoc, List.append_cancel_left_eq] at same
  obtain ⟨mvid, same⟩ := str_delimited _ _ _ _ same
  simp only [List.append_cancel_left_eq] at same
  obtain ⟨build, same⟩ := str_delimited _ _ _ _ same
  simp only [List.append_cancel_left_eq] at same
  obtain ⟨members, -⟩ := members_delimited _ _ _ _ same
  exact ⟨mvid, build, members⟩

/-- Two surfaces with one text have the same header and the same members, with null read as the empty string. -/
theorem serialize_injective (sorter : ListSort) (doc other : SurfaceDoc)
    (same : serialize sorter doc = serialize sorter other) :
    doc.header.assemblyMvid.getD [] = other.header.assemblyMvid.getD [] ∧
      doc.header.gameBuildId.getD [] = other.header.gameBuildId.getD [] ∧
      (doc.members.map content).Perm (other.members.map content) := by
  obtain ⟨mvid, build, shown⟩ := serialize_shows same
  refine ⟨mvid, build, ?_⟩
  have straight := (sorter.perm compareEntries doc.members).map content
  have crossed := (sorter.perm compareEntries other.members).map content
  exact straight.symm.trans (shown ▸ crossed)

theorem sort_single (sorter : ListSort) (m : SurfaceEntry) : sortMembers sorter [m] = [m] :=
  List.perm_singleton.mp (sorter.perm compareEntries [m])

def unnamedType (type : Option Text) : SurfaceDoc :=
  { header := ⟨none, some (units "a\"b\\\n")⟩
    members := [⟨type, some (units "\x01"), some (units "field"), false, some (units "\t\"")⟩] }

theorem serialize_injective_null :
    ((unnamedType none).members.map content).Perm ((unnamedType (some [])).members.map content) := by
  refine (serialize_injective ListSort.merge (unnamedType none) (unnamedType (some [])) ?_).2.2
  unfold serialize unnamedType
  rw [sort_single, sort_single]
  decide +kernel

end Surfaces

section Order

instance : Std.TransCmp compareEntries :=
  inferInstanceAs (Std.TransCmp (compareLex (compareOn SurfaceEntry.type) (compareLex (compareOn SurfaceEntry.member)
    (compareLex (compareOn SurfaceEntry.kind) (compareOn SurfaceEntry.signature)))))

theorem compareEntries_eq {a b : SurfaceEntry} : compareEntries a b = .eq ↔
    a.type = b.type ∧ a.member = b.member ∧ a.kind = b.kind ∧ a.signature = b.signature := by
  simp only [compareEntries, compareOrdinal, Ordering.then_eq_eq, Std.LawfulEqOrd.compare_eq_iff_eq]

/-- Members that tie differ in `static` or not at all. -/
theorem tie_eq {a b : SurfaceEntry} (tie : compareEntries a b = .eq) (static : a.static = b.static) : a = b := by
  obtain ⟨type, member, kind, signature⟩ := compareEntries_eq.mp tie
  cases a
  cases b
  simp_all

theorem serialize_sorted {sorter : ListSort} {doc other : SurfaceDoc} (header : other.header = doc.header)
    (members : sortMembers sorter other.members = sortMembers sorter doc.members) :
    serialize sorter other = serialize sorter doc := by
  unfold serialize
  rw [header, members]

/-- Two members that tie but differ in `static` come out the other way round when exchanged. -/
theorem serialize_exchanged (sorter : ListSort) (header : SurfaceHeader) {members : List SurfaceEntry}
    {i j : Fin members.length} (tie : compareEntries (members.get i) (members.get j) = .eq)
    (static : (members.get i).static ≠ (members.get j).static) :
    serialize sorter ⟨header, ListSort.exchanged members i j⟩ ≠ serialize sorter ⟨header, members⟩ := by
  intro same
  obtain ⟨-, -, shown⟩ := serialize_shows same
  refine sorter.sort_shows_order content tie ?_ shown
  intro alike
  have parts := congrArg (fun seen => seen.2.2.2.1) alike
  exact static parts

/-- The text does not depend on the members' order exactly when no two members differ in `static` alone. -/
theorem serialize_order_free_iff (sorter : ListSort) (doc : SurfaceDoc) :
    (∀ other : SurfaceDoc, other.header = doc.header → other.members.Perm doc.members →
      serialize sorter other = serialize sorter doc) ↔
    ∀ a ∈ doc.members, ∀ b ∈ doc.members, a.type = b.type → a.member = b.member → a.kind = b.kind →
      a.signature = b.signature → a.static = b.static := by
  constructor
  · intro free a inA b inB type member kind signature
    have tie := compareEntries_eq.mpr ⟨type, member, kind, signature⟩
    obtain ⟨i, rfl⟩ := List.mem_iff_get.mp inA
    obtain ⟨j, rfl⟩ := List.mem_iff_get.mp inB
    by_contra static
    apply serialize_exchanged sorter doc.header tie static
    exact free ⟨doc.header, _⟩ rfl (ListSort.exchanged_perm doc.members i j)
  · intro separated other header permuted
    apply serialize_sorted header
    apply sorter.sort_eq_of_perm permuted
    intro a inA b inB tie
    obtain ⟨type, member, kind, signature⟩ := compareEntries_eq.mp tie
    exact tie_eq tie (separated a inA b inB type member kind signature)

/-- One type declared once as an instance and once as static. -/
def declaredTwice (first second : Bool) : SurfaceDoc :=
  { header := ⟨some (units "mvid"), some (units "build")⟩
    members := [first, second].map fun static =>
      ⟨some (units "GameState"), some [], some (units "type"), static, some (units "GameState")⟩ }

theorem serialize_order_shows : ¬ ∃ sorter : ListSort, ∀ doc other : SurfaceDoc, other.header = doc.header →
    other.members.Perm doc.members → serialize sorter other = serialize sorter doc := by
  rintro ⟨sorter, free⟩
  have permuted : (declaredTwice true false).members.Perm (declaredTwice false true).members := .swap _ _ _
  have same := free (declaredTwice false true) (declaredTwice true false) rfl permuted
  have tie : compareEntries ((declaredTwice false true).members.get ⟨0, Nat.two_pos⟩)
      ((declaredTwice false true).members.get ⟨1, Nat.one_lt_two⟩) = .eq := by decide +kernel
  exact serialize_exchanged sorter (declaredTwice false true).header tie Bool.false_ne_true same

end Order

end CanonicalJson
end SailwindOnline.ApiGen
