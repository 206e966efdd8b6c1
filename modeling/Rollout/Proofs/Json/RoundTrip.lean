/-
Written values read back.

Whatever the layout, a plain value is written as a text that is read as the same value.  The
reader's bound on depth and members is never met: every step of it takes a character, so a bound
of the length of what is left is enough.

* `Layout.Readable` — layouts that put nothing but gaps around commas and colons;
* `scanItems_reads`, `scanMembers_reads` — the items and members of a container read back;
* `reads_of_plain` — a plain value reads back, whatever follows it;
* `exists_write_read` — a plain value can be written, and reads back;
* `write_injective` — plain values that are written alike are the same.
-/
import Rollout.Proofs.Json.Number
import Rollout.Proofs.Json.Text
import Rollout.Proofs.Value.Plain

namespace Rollout.Json

open Rollout.Text

/-! ### Gaps -/

/-- Nothing but gaps. -/
def AllGaps (cs : List Char) : Prop := ∀ c ∈ cs, isGap c = true

/-- A layout with nothing but gaps around commas and colons. -/
structure Layout.Readable (layout : Layout) : Prop where
  comma : ∃ gap, layout.comma = ',' :: gap ∧ AllGaps gap
  colon : ∃ gap, layout.colon = ':' :: gap ∧ AllGaps gap

theorem readable_compact : Layout.compact.Readable :=
  ⟨⟨[], rfl, fun c hc => by cases hc⟩, ⟨[], rfl, fun c hc => by cases hc⟩⟩

theorem readable_spaced : Layout.spaced.Readable :=
  have hgap : AllGaps [' '] := List.forall_mem_singleton.mpr rfl
  ⟨⟨[' '], rfl, hgap⟩, ⟨[' '], rfl, hgap⟩⟩

/-- A text that begins like a value. -/
def Starts (cs : List Char) : Prop :=
  ∃ c tail, cs = c :: tail ∧ isGap c = false ∧ c ≠ ']' ∧ c ≠ '\uFEFF'

theorem AllGaps.append {as bs : List Char} (ha : AllGaps as) (hb : AllGaps bs) :
    AllGaps (as ++ bs) := by
  intro c hc
  rcases List.mem_append.mp hc with hc | hc
  · exact ha c hc
  · exact hb c hc

theorem allGaps_lineBreak (layout : Layout) (level : Nat) : AllGaps (lineBreak layout level) := by
  intro c hc
  unfold lineBreak at hc
  split at hc
  · rcases List.mem_cons.mp hc with rfl | hc
    · rfl
    · rw [List.eq_of_mem_replicate hc]
      rfl
  · cases hc

theorem skipGap_cons {c : Char} (h : isGap c = false) (cs : List Char) :
    skipGap (c :: cs) = c :: cs := by
  rw [skipGap, List.dropWhile_cons, h]
  rfl

theorem AllGaps.skipGap_append {gap : List Char} (h : AllGaps gap) (cs : List Char) :
    skipGap (gap ++ cs) = skipGap cs :=
  List.dropWhile_append_of_pos h

theorem Starts.append {cs : List Char} (h : Starts cs) (rest : List Char) : Starts (cs ++ rest) := by
  obtain ⟨c, tail, rfl, hc⟩ := h
  exact ⟨c, tail ++ rest, rfl, hc⟩

theorem Starts.skipGap {cs : List Char} (h : Starts cs) : skipGap cs = cs := by
  obtain ⟨c, tail, rfl, hc, -⟩ := h
  exact skipGap_cons hc tail

theorem AllGaps.ends {gap : List Char} (h : AllGaps gap) {c : Char}
    (hc : c = ',' ∨ c = ']' ∨ c = '\x7d') (rest : List Char) : Ends (gap ++ c :: rest) := by
  intro d hd
  cases gap with
  | nil =>
    cases hd
    exact Or.inr hc
  | cons g gap =>
    cases hd
    exact Or.inl (h _ List.mem_cons_self)

theorem ends_comma (rest : List Char) : Ends (',' :: rest) := by
  intro c hc
  cases hc
  exact Or.inr (Or.inl rfl)

/-! ### Items and members -/

/-- A value is written as a text that is read as the value, whatever follows it. -/
def Reads (layout : Layout) (v : Value) : Prop :=
  ∀ level, ∃ cs, writeAt layout level v = .ok cs ∧ Starts cs ∧
    ∀ fuel rest, Ends rest → cs.length ≤ fuel → scanValue fuel (cs ++ rest) = .ok (v, rest)

theorem intercalate_cons_cons (separator p q : List Char) (parts : List (List Char)) :
    separator.intercalate (p :: q :: parts)
      = p ++ (separator ++ separator.intercalate (q :: parts)) := by
  simp [List.intercalate]

theorem intercalate_singleton (separator p : List Char) : separator.intercalate [p] = p := by
  simp [List.intercalate]

variable {layout : Layout}

/-- The last item of a list stands before the closing bracket. -/
theorem scanItems_last {fuel : Nat} {p gap rest : List Char} {v : Value} (hgap : AllGaps gap)
    (hread : scanValue fuel (p ++ (gap ++ ']' :: rest)) = .ok (v, gap ++ ']' :: rest)) :
    scanItems (fuel + 1) (p ++ (gap ++ ']' :: rest)) = .ok ([v], rest) := by
  rw [scanItems, hread]
  simp only [hgap.skipGap_append, skipGap_cons (show isGap ']' = false by decide)]

/-- Any other item stands before a comma. -/
theorem scanItems_next {fuel : Nat} {p gap more rest : List Char} {v : Value} {items : List Value}
    (hgap : AllGaps gap) (hstarts : Starts more)
    (hread : scanValue fuel (p ++ ',' :: (gap ++ more)) = .ok (v, ',' :: (gap ++ more)))
    (hitems : scanItems fuel more = .ok (items, rest)) :
    scanItems (fuel + 1) (p ++ ',' :: (gap ++ more)) = .ok (v :: items, rest) := by
  rw [scanItems, hread]
  simp only [skipGap_cons (show isGap ',' = false by decide), hgap.skipGap_append,
    hstarts.skipGap, hitems]

/-- The items of a list are read up to its closing bracket. -/
theorem scanItems_reads {items : List Value} (hne : items ≠ [])
    (h : ∀ v ∈ items, Reads layout v) (level : Nat) {gap : List Char} (hgap : AllGaps gap) :
    ∃ parts, writeItems layout level items = .ok parts ∧ parts ≠ [] ∧
      Starts ((',' :: gap).intercalate parts) ∧
      ∀ fuel before rest, AllGaps before →
        ((',' :: gap).intercalate parts).length + 1 ≤ fuel →
        scanItems fuel ((',' :: gap).intercalate parts ++ (before ++ ']' :: rest))
          = .ok (items, rest) := by
  induction items with
  | nil => exact absurd rfl hne
  | cons v items ih =>
    obtain ⟨p, hwrite, hstarts, hread⟩ := h v List.mem_cons_self level
    by_cases hitems : items = []
    · subst hitems
      refine ⟨[p], by rw [writeItems, hwrite]; rfl, List.cons_ne_nil _ _, ?_, ?_⟩
      · rwa [intercalate_singleton]
      · intro fuel before rest hbefore hfuel
        rw [intercalate_singleton] at hfuel ⊢
        obtain ⟨fuel, rfl⟩ : ∃ k, fuel = k + 1 := ⟨fuel - 1, by omega⟩
        exact scanItems_last hbefore (hread fuel _ (hbefore.ends (by decide) rest) (by omega))
    · obtain ⟨parts, hwrites, hparts, hstarts', hreads⟩ :=
        ih hitems fun w hw => h w (List.mem_cons_of_mem _ hw)
      obtain ⟨q, parts, rfl⟩ := List.exists_cons_of_ne_nil hparts
      refine ⟨p :: q :: parts, by rw [writeItems, hwrite, hwrites]; rfl, List.cons_ne_nil _ _, ?_, ?_⟩
      · rw [intercalate_cons_cons]
        exact hstarts.append _
      · intro fuel before rest hbefore hfuel
        rw [intercalate_cons_cons] at hfuel ⊢
        simp only [List.length_append, List.length_cons] at hfuel
        -- The item takes a character at least, and the comma another, so the bound goes down.
        obtain ⟨fuel, rfl⟩ : ∃ k, fuel = k + 1 := ⟨fuel - 1, by omega⟩
        simp only [List.append_assoc, List.cons_append]
        exact scanItems_next hgap (hstarts'.append _)
          (hread fuel _ (ends_comma _) (by omega)) (hreads fuel before rest hbefore (by omega))

/-- A member: a name, a colon and the text of a value. -/
def member (layout : Layout) (s : String) (p : List Char) : List Char :=
  writeText layout.escapesAll s ++ layout.colon ++ p

theorem member_eq {gap : List Char} (hcolon : layout.colon = ':' :: gap) (s : String)
    (p rest : List Char) : member layout s p ++ rest
      = '"' :: (s.toList.flatMap (writeChar layout.escapesAll)
          ++ '"' :: ':' :: (gap ++ (p ++ rest))) := by
  rw [member, writeText, hcolon]
  simp

/-- The last member of an object stands before the closing brace. -/
theorem scanMembers_last (hcolon : ∃ gap, layout.colon = ':' :: gap ∧ AllGaps gap) {fuel : Nat}
    {s : String} {p gap rest : List Char} {v : Value} (hgap : AllGaps gap) (hstarts : Starts p)
    (hread : scanValue fuel (p ++ (gap ++ '\x7d' :: rest)) = .ok (v, gap ++ '\x7d' :: rest)) :
    scanMembers (fuel + 1) (member layout s p ++ (gap ++ '\x7d' :: rest))
      = .ok ([(.text s, v)], rest) := by
  obtain ⟨colonGap, hcolon, hcolonGap⟩ := hcolon
  rw [member_eq hcolon, scanMembers, scanString_writeText]
  simp only [skipGap_cons (show isGap ':' = false by decide), hcolonGap.skipGap_append,
    (hstarts.append _).skipGap]
  rw [hread]
  simp only [hgap.skipGap_append, skipGap_cons (show isGap '\x7d' = false by decide)]

/-- Any other member stands before a comma. -/
theorem scanMembers_next (hcolon : ∃ gap, layout.colon = ':' :: gap ∧ AllGaps gap) {fuel : Nat}
    {s : String} {p gap more rest : List Char} {v : Value} {entries : Attributes}
    (hgap : AllGaps gap) (hstarts : Starts p) (hmore : Starts more)
    (hread : scanValue fuel (p ++ ',' :: (gap ++ more)) = .ok (v, ',' :: (gap ++ more)))
    (hentries : scanMembers fuel more = .ok (entries, rest)) :
    scanMembers (fuel + 1) (member layout s p ++ ',' :: (gap ++ more))
      = .ok ((.text s, v) :: entries, rest) := by
  obtain ⟨colonGap, hcolon, hcolonGap⟩ := hcolon
  rw [member_eq hcolon, scanMembers, scanString_writeText]
  simp only [skipGap_cons (show isGap ':' = false by decide), hcolonGap.skipGap_append,
    (hstarts.append _).skipGap]
  rw [hread]
  simp only [skipGap_cons (show isGap ',' = false by decide), hgap.skipGap_append,
    hmore.skipGap, hentries]

/-- The members of an object are read up to its closing brace. -/
theorem scanMembers_reads (hcolon : ∃ gap, layout.colon = ':' :: gap ∧ AllGaps gap)
    {entries : Attributes} (hne : entries ≠ [])
    (hkeys : ∀ e ∈ entries, ∃ s, e.1 = .text s)
    (h : ∀ e ∈ entries, Reads layout e.2) (level : Nat) {gap : List Char} (hgap : AllGaps gap) :
    ∃ parts, writeMembers layout level entries = .ok parts ∧ parts ≠ [] ∧
      (∃ tail, (',' :: gap).intercalate parts = '"' :: tail) ∧
      ∀ fuel before rest, AllGaps before →
        ((',' :: gap).intercalate parts).length + 1 ≤ fuel →
        scanMembers fuel ((',' :: gap).intercalate parts ++ (before ++ '\x7d' :: rest))
          = .ok (entries, rest) := by
  induction entries with
  | nil => exact absurd rfl hne
  | cons e entries ih =>
    obtain ⟨k, v⟩ := e
    obtain ⟨s, rfl⟩ := hkeys (k, v) List.mem_cons_self
    obtain ⟨p, hwrite, hstarts, hread⟩ := h (.text s, v) List.mem_cons_self level
    have hlength : p.length + 1 ≤ (member layout s p).length := by
      simp only [member, writeText, List.length_append, List.length_cons]
      omega
    by_cases hentries : entries = []
    · subst hentries
      refine ⟨[member layout s p], ?_, List.cons_ne_nil _ _, ?_, ?_⟩
      · rw [writeMembers, keyName]
        simp only [hwrite]
        rfl
      · rw [intercalate_singleton]
        exact ⟨_, rfl⟩
      · intro fuel before rest hbefore hfuel
        rw [intercalate_singleton] at hfuel ⊢
        obtain ⟨fuel, rfl⟩ : ∃ k, fuel = k + 1 := ⟨fuel - 1, by omega⟩
        exact scanMembers_last hcolon hbefore hstarts
          (hread fuel _ (hbefore.ends (by decide) rest) (by omega))
    · obtain ⟨parts, hwrites, hparts, ⟨tail, htail⟩, hreads⟩ :=
        ih hentries (fun e he => hkeys e (List.mem_cons_of_mem _ he))
          fun e he => h e (List.mem_cons_of_mem _ he)
      obtain ⟨q, parts, rfl⟩ := List.exists_cons_of_ne_nil hparts
      have hmore : Starts ((',' :: gap).intercalate (q :: parts)) := ⟨_, _, htail, by decide⟩
      refine ⟨member layout s p :: q :: parts, ?_, List.cons_ne_nil _ _, ?_, ?_⟩
      · rw [writeMembers, keyName]
        simp only [hwrite, hwrites]
        rfl
      · rw [intercalate_cons_cons]
        exact ⟨_, rfl⟩
      · intro fuel before rest hbefore hfuel
        rw [intercalate_cons_cons] at hfuel ⊢
        simp only [List.length_append, List.length_cons] at hfuel
        obtain ⟨fuel, rfl⟩ : ∃ k, fuel = k + 1 := ⟨fuel - 1, by omega⟩
        simp only [List.append_assoc, List.cons_append]
        exact scanMembers_next hcolon hgap hstarts (hmore.append _)
          (hread fuel _ (ends_comma _) (by omega)) (hreads fuel before rest hbefore (by omega))

/-! ### Values -/

/-- A text that begins like a value that is neither a text nor a container. -/
def StartsAtom (cs : List Char) : Prop :=
  ∃ c tail, cs = c :: tail ∧ (isGap c = false ∧ c ≠ ']' ∧ c ≠ '\uFEFF') ∧
    c ≠ '"' ∧ c ≠ '[' ∧ c ≠ '\x7b'

theorem startsAtom_signText (negative : Bool) {cs : List Char} (hne : cs ≠ [])
    (h : ∀ c ∈ cs.head?, c.isDigit = true) : StartsAtom (Decimal.signText negative ++ cs) := by
  cases negative with
  | true => exact ⟨'-', cs, rfl, by decide⟩
  | false =>
    obtain ⟨c, tail, rfl⟩ := List.exists_cons_of_ne_nil hne
    have hc := (isDigit_iff_toNat c).mp (h c rfl)
    have hother : ∀ d : Char, d.toNat < 48 ∨ 57 < d.toNat → c ≠ d := by
      rintro d hd rfl
      omega
    refine ⟨c, tail, rfl, ⟨?_, hother _ (by decide), hother _ (by decide)⟩, hother _ (by decide),
      hother _ (by decide), hother _ (by decide)⟩
    simp only [isGap, Bool.or_eq_false_iff, beq_eq_false_iff_ne]
    exact ⟨⟨⟨hother _ (by decide), hother _ (by decide)⟩, hother _ (by decide)⟩,
      hother _ (by decide)⟩

theorem reads_of_atom {v : Value} {cs : List Char} (hwrite : ∀ level, writeAt layout level v = .ok cs)
    (hstarts : StartsAtom cs)
    (hscan : ∀ rest, Ends rest → scanAtom (cs ++ rest) = .ok (v, rest)) : Reads layout v := by
  intro level
  obtain ⟨c, tail, rfl, hplain, hquote, hbracket, hbrace⟩ := hstarts
  refine ⟨_, hwrite level, ⟨c, tail, rfl, hplain⟩, fun fuel rest hrest hfuel => ?_⟩
  rw [List.length_cons] at hfuel
  obtain ⟨fuel, rfl⟩ : ∃ k, fuel = k + 1 := ⟨fuel - 1, by omega⟩
  rw [List.cons_append, scanValue]
  simp only [if_neg hquote, if_neg hbracket, if_neg hbrace]
  exact hscan rest hrest

theorem reads_text (s : String) : Reads layout (.text s) := by
  intro level
  refine ⟨_, rfl, ⟨'"', _, rfl, by decide⟩, fun fuel rest hrest hfuel => ?_⟩
  simp only [writeText, List.length_append, List.length_cons] at hfuel
  obtain ⟨fuel, rfl⟩ : ∃ k, fuel = k + 1 := ⟨fuel - 1, by omega⟩
  rw [writeText, List.append_assoc, List.cons_append, scanValue]
  simp only [if_true, List.singleton_append, scanString_writeText]

theorem reads_int (n : Int) (h : digitCount n.natAbs ≤ Numeral.maxDigits) :
    Reads layout (.int n) := by
  have hwrite : ∀ level, writeAt layout level (.int n) = .ok (intText n) := by
    intro level
    rw [writeAt, writeInt, if_pos h]
  refine reads_of_atom hwrite ?_ fun rest hrest => scanAtom_int n h hrest
  rw [Numeral.intText_eq]
  exact startsAtom_signText _ (natText_ne_nil _) fun c hc =>
    allDigits_natText _ c (List.mem_of_mem_head? hc)

theorem reads_float (negative : Bool) {m : Nat} {e : Int} (h : Binary64.Canonical m e) :
    Reads layout (.float (.finite negative m e)) := by
  refine reads_of_atom (fun level => rfl) ?_ fun rest hrest => scanAtom_float negative h hrest
  obtain ⟨p, hwf, -, htext, -⟩ := exists_parts_writeFloat negative h
  rw [htext]
  exact startsAtom_signText _ (List.append_ne_nil_of_left_ne_nil hwf.ne_nil _) hwf.head?_text

theorem reads_list (hcomma : ∃ gap, layout.comma = ',' :: gap ∧ AllGaps gap)
    {items : List Value} (h : ∀ v ∈ items, Reads layout v) : Reads layout (.list items) := by
  intro level
  -- Without items there is no line break, and the reader has a case of its own.
  by_cases hitems : items = []
  · subst hitems
    refine ⟨['[', ']'], rfl, ⟨'[', [']'], rfl, by decide⟩, fun fuel rest _ hfuel => ?_⟩
    obtain ⟨fuel, rfl⟩ : ∃ k, fuel = k + 1 := ⟨fuel - 1, by simp at hfuel; omega⟩
    rw [List.cons_append, scanValue]
    rfl
  · obtain ⟨gap, hcomma, hgap⟩ := hcomma
    have hbreak := allGaps_lineBreak layout (level + 1)
    obtain ⟨parts, hwrite, hparts, hstarts, hread⟩ :=
      scanItems_reads hitems h (level + 1) (hgap.append hbreak)
    set body := (',' :: (gap ++ lineBreak layout (level + 1))).intercalate parts with hbody
    have hwritten : writeAt layout level (.list items) = .ok ('[' ::
        (lineBreak layout (level + 1) ++ (body ++ (lineBreak layout level ++ [']'])))) := by
      rw [writeAt, hwrite]
      simp [Except.map, bracket, hparts, hcomma, hbody]
    refine ⟨_, hwritten, ⟨'[', _, rfl, by decide⟩, fun fuel rest _ hfuel => ?_⟩
    simp only [List.length_append, List.length_cons, List.length_nil] at hfuel
    obtain ⟨fuel, rfl⟩ : ∃ k, fuel = k + 1 := ⟨fuel - 1, by omega⟩
    have hitems := hread fuel (lineBreak layout level) rest (allGaps_lineBreak layout level)
      (by omega)
    obtain ⟨c, tail, hc, hcgap, hclose, -⟩ := hstarts
    simp only [List.append_assoc, List.cons_append, List.nil_append]
    rw [scanValue]
    simp only [Char.reduceEq, if_false, if_true, hbreak.skipGap_append]
    rw [hc, List.cons_append] at hitems ⊢
    rw [skipGap_cons hcgap]
    -- The text goes on with an item, which does not begin with a closing bracket.
    split
    · rename_i heq
      cases heq
      exact absurd rfl hclose
    · rw [hitems]

theorem reads_map (hlayout : layout.Readable) {entries : Attributes} (hnamed : Named entries)
    (h : ∀ e ∈ entries, Reads layout e.2) : Reads layout (.map entries) := by
  intro level
  by_cases hentries : entries = []
  · subst hentries
    refine ⟨['\x7b', '\x7d'], rfl, ⟨'\x7b', ['\x7d'], rfl, by decide⟩,
      fun fuel rest _ hfuel => ?_⟩
    obtain ⟨fuel, rfl⟩ : ∃ k, fuel = k + 1 := ⟨fuel - 1, by simp at hfuel; omega⟩
    rw [List.cons_append, scanValue]
    rfl
  · obtain ⟨gap, hcomma, hgap⟩ := hlayout.comma
    have hbreak := allGaps_lineBreak layout (level + 1)
    obtain ⟨parts, hwrite, hparts, ⟨tail, hquote⟩, hread⟩ :=
      scanMembers_reads hlayout.colon hentries hnamed.1 h (level + 1) (hgap.append hbreak)
    set body := (',' :: (gap ++ lineBreak layout (level + 1))).intercalate parts with hbody
    have hwritten : writeAt layout level (.map entries) = .ok ('\x7b' ::
        (lineBreak layout (level + 1) ++ (body ++ (lineBreak layout level ++ ['\x7d'])))) := by
      rw [writeAt, hwrite]
      simp [Except.map, bracket, hparts, hcomma, hbody]
    refine ⟨_, hwritten, ⟨'\x7b', _, rfl, by decide⟩, fun fuel rest _ hfuel => ?_⟩
    simp only [List.length_append, List.length_cons, List.length_nil] at hfuel
    obtain ⟨fuel, rfl⟩ : ∃ k, fuel = k + 1 := ⟨fuel - 1, by omega⟩
    have hmembers := hread fuel (lineBreak layout level) rest (allGaps_lineBreak layout level)
      (by omega)
    simp only [List.append_assoc, List.cons_append, List.nil_append]
    rw [scanValue]
    simp only [Char.reduceEq, if_false, if_true, hbreak.skipGap_append]
    rw [hquote, List.cons_append] at hmembers ⊢
    rw [skipGap_cons (by decide)]
    split
    · rename_i heq
      cases heq
    · rw [hmembers]
      simp only [Value.ofEntries, hnamed.ofEntries]

/-- A plain value is written as a text that is read as the value, whatever follows it. -/
theorem reads_of_plain (hlayout : layout.Readable) {v : Value} (h : v.Plain) : Reads layout v := by
  induction h with
  | null =>
    exact reads_of_atom (fun level => rfl) ⟨'n', _, rfl, by decide⟩ fun rest _ => rfl
  | bool b =>
    cases b with
    | true => exact reads_of_atom (fun level => rfl) ⟨'t', _, rfl, by decide⟩ fun rest _ => rfl
    | false => exact reads_of_atom (fun level => rfl) ⟨'f', _, rfl, by decide⟩ fun rest _ => rfl
  | int n h => exact reads_int n h
  | float negative m e h => exact reads_float negative h
  | text s => exact reads_text s
  | list items _ ih => exact reads_list hlayout.comma ih
  | map entries hnamed _ ih => exact reads_map hlayout hnamed ih

/-! ### Whole texts -/

/-- **Written values read back.**  A plain value can be written in any readable layout, and what
is written is read as the value. -/
theorem exists_write_read (hlayout : layout.Readable) {v : Value} (h : v.Plain) :
    ∃ s, write layout v = .ok s ∧ read s = .ok v := by
  obtain ⟨cs, hwrite, ⟨c, tail, hc, hgap, -, hmark⟩, hread⟩ := reads_of_plain hlayout h 0
  refine ⟨.ofList cs, by rw [write, writeChars, hwrite]; rfl, ?_⟩
  -- The reader's own bound is twice the length of the text, so more than enough.
  have hscan := hread (2 * cs.length + 1) [] ends_nil (by omega)
  rw [List.append_nil] at hscan
  rw [read, String.toList_ofList, readChars, scanText]
  · rw [hc, skipGap_cons hgap, ← hc, hscan]
    rfl
  · intro rest heq
    rw [hc, List.cons.injEq] at heq
    exact hmark heq.1

/-- **Writing is injective.**  Plain values that are written alike are the same. -/
theorem write_injective (hlayout : layout.Readable) {v w : Value} (hv : v.Plain) (hw : w.Plain)
    (h : write layout v = write layout w) : v = w := by
  obtain ⟨s, hs, hread⟩ := exists_write_read hlayout hv
  obtain ⟨t, ht, hread'⟩ := exists_write_read hlayout hw
  rw [hs, ht] at h
  cases h
  rw [hread] at hread'
  cases hread'
  rfl

end Rollout.Json
