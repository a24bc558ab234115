import TokenNet.Bench.Eval
import TokenNet.Proofs.Writing
/-!
Loading a net from the text of its export.  What the text is read as is the export itself, up to
values by which an arc could be refused anyway, so the text loads exactly if the export does, and
then to the same net.  Main statement: `Draft.Reached.reload_text`.
-/

namespace TokenNet

open Act Checked

/-! ## Layouts -/

namespace Bench

theorem repetition_blank_eq_ok {n : Int} {cs : List Char} :
    Datum.repetition [' '] .tooLarge n = .ok cs ↔
      (-2 ^ 63 ≤ n ∧ n < Datum.memory) ∧ cs = Datum.repeatList [' '] n := by
  have hsize : Datum.maxSize = 2 ^ 63 - 1 := rfl
  have hmemory : Datum.memory = 2 ^ 32 := rfl
  simp only [Datum.repetition, List.isEmpty_cons, Bool.false_eq_true, if_false,
    List.length_singleton, Nat.one_mul]
  split_ifs with hword hlong hroom
  · exact ⟨fun h => (nomatch h), fun h => absurd h.1 (by omega)⟩
  · exact ⟨fun h => (nomatch h), fun h => absurd h.1 (by omega)⟩
  · exact ⟨fun h => (nomatch h), fun h => absurd h.1 (by omega)⟩
  · exact ⟨fun h => ⟨by omega, (Except.ok.inj h).symm⟩, fun h => h.2 ▸ rfl⟩

/-- A number indents by as many blanks, and only if these fit in memory. -/
theorem layoutOf_int_eq_ok {n : Int} {layout : Json.Layout} :
    layoutOf (.int n) = .ok layout ↔
      (-2 ^ 63 ≤ n ∧ n < Datum.memory) ∧ layout = .indented (Datum.repeatList [' '] n) := by
  have hmul : (Datum.text " ").mul (.int n) =
      (Datum.repetition [' '] .tooLarge n).map fun cs => .text (String.ofList cs) := rfl
  have hblank := @repetition_blank_eq_ok n
  simp only [layoutOf, hmul]
  cases hr : Datum.repetition [' '] .tooLarge n with
  | error e =>
    refine ⟨fun h => (nomatch h), fun h => ?_⟩
    rw [hblank.2 ⟨h.1, rfl⟩] at hr
    cases hr
  | ok cs =>
    obtain ⟨hroom, rfl⟩ := hblank.1 hr
    simp only [Except.map, String.toList_ofList]
    exact ⟨fun h => ⟨hroom, (Except.ok.inj h).symm⟩, fun h => h.2 ▸ rfl⟩

/-- Nothing, or a number of blanks that fits in memory. -/
def Indents (indent : Datum) : Prop :=
  indent = .null ∨ ∃ n : Int, -2 ^ 63 ≤ n ∧ n < Datum.memory ∧ indent = .int n

theorem Indents.layoutOf {indent : Datum} (h : Indents indent) :
    ∃ layout, Bench.layoutOf indent = .ok layout ∧ layout.Blank := by
  rcases h with rfl | ⟨n, hlow, hhigh, rfl⟩
  · exact ⟨.line, rfl, trivial⟩
  · refine ⟨_, layoutOf_int_eq_ok.2 ⟨⟨hlow, hhigh⟩, rfl⟩, fun c hc => ?_⟩
    simp only [Datum.repeatList, List.mem_flatten, List.mem_replicate] at hc
    obtain ⟨cs, ⟨-, rfl⟩, hc⟩ := hc
    rw [List.mem_singleton.1 hc]
    rfl

end Bench

/-! ## What is written -/

namespace Json

variable {layout : Layout}

theorem written_of_mem_items {items : List Datum} {n : Nat} {cs : List Char}
    (h : writeItems layout n items = .ok cs) {d : Datum} (hd : d ∈ items) :
    ∃ cs, write layout n d = .ok cs := by
  induction items generalizing cs with
  | nil => exact absurd hd List.not_mem_nil
  | cons d' rest ih =>
    obtain ⟨head, hhead, h⟩ := bind_eq_ok.1 h
    rcases List.mem_cons.1 hd with rfl | hd
    · exact ⟨head, hhead⟩
    · cases rest with
      | nil => exact absurd hd List.not_mem_nil
      | cons d'' rest =>
        obtain ⟨more, hmore, -⟩ := bind_eq_ok.1 h
        exact ih hmore hd

theorem written_of_mem_entries {entries : List (Datum × Datum)} {n : Nat} {cs : List Char}
    (h : writeEntries layout n entries = .ok cs) {e : Datum × Datum} (he : e ∈ entries) :
    ∃ cs, write layout n e.2 = .ok cs := by
  induction entries generalizing cs with
  | nil => exact absurd he List.not_mem_nil
  | cons e' rest ih =>
    obtain ⟨key, -, h⟩ := bind_eq_ok.1 h
    obtain ⟨value, hvalue, h⟩ := bind_eq_ok.1 h
    rcases List.mem_cons.1 he with rfl | he
    · exact ⟨value, hvalue⟩
    · cases rest with
      | nil => exact absurd he List.not_mem_nil
      | cons e'' rest =>
        obtain ⟨more, hmore, -⟩ := bind_eq_ok.1 h
        exact ih hmore he

theorem written_of_mem_list {items : List Datum} {n : Nat} {cs : List Char}
    (h : write layout n (.list items) = .ok cs) {d : Datum} (hd : d ∈ items) :
    ∃ n cs, write layout n d = .ok cs := by
  cases items with
  | nil => exact absurd hd List.not_mem_nil
  | cons d' rest =>
    obtain ⟨body, hbody, -⟩ := bind_eq_ok.1 h
    exact ⟨_, written_of_mem_items hbody hd⟩

theorem written_of_mem_named {entries : List (String × Datum)} {n : Nat} {cs : List Char}
    (h : write layout n (named entries) = .ok cs) {e : String × Datum} (he : e ∈ entries) :
    ∃ n cs, write layout n e.2 = .ok cs := by
  cases entries with
  | nil => exact absurd he List.not_mem_nil
  | cons e' rest =>
    obtain ⟨body, hbody, -⟩ := bind_eq_ok.1 h
    obtain ⟨cs, hcs⟩ := written_of_mem_entries hbody
      (List.mem_map_of_mem (f := fun e : String × Datum => (Datum.text e.1, e.2)) he)
    exact ⟨_, cs, hcs⟩

end Json

/-! ## What the text is read as -/

/-- A truth value is read the same from text. -/
theorem Datum.truth?_asRead (d : Datum) : (Json.asRead d).truth? = d.truth? := by
  cases d with
  | float x =>
    rw [Json.asRead, Binary64.asRead]
    split
    next hnan =>
      have hx : x.toInt? = none := by
        have hfinite : x.isFinite = false := by
          simp only [Binary64.isNan, Bool.and_eq_true, Bool.not_eq_true'] at hnan
          exact hnan.1
        simp [Binary64.toInt?, hfinite]
      simp only [truth?, Check.bool, hx]
      rfl
    next => rfl
  | list items => rfl
  | map entries => rfl
  | _ => rfl

namespace Net

/-- The net whose export is read where the net's own was written. -/
def asRead (net : Net) : Net :=
  { net with arcs := net.arcs.map fun arc => { arc with inhibit := Json.asRead arc.inhibit } }

variable {config : Config} {net : Net}

theorem Plain.asRead (h : net.Plain) : net.asRead.Plain :=
  ⟨h.schema, h.places, h.transitions, h.tagged⟩

theorem Exportable.asRead (h : net.Exportable config) : net.asRead.Exportable config := by
  refine ⟨h.distinct, h.named, h.sound, h.whole, fun arc hmem => ?_⟩
  obtain ⟨arc, harc, rfl⟩ := List.mem_map.1 hmem
  exact ⟨(h.proper arc harc).source, (h.proper arc harc).target, (h.proper arc harc).weight⟩

theorem declaration_asRead (net : Net) : net.asRead.declaration = net.declaration := by
  have hentry : ∀ arc : Arc,
      Arc.entry { arc with inhibit := Json.asRead arc.inhibit } = arc.entry := by
    intro arc
    simp only [Arc.entry, Datum.truth?_asRead]
  simp only [declaration, asRead, List.map_map, Function.comp_def, hentry]

theorem Built.asRead_exported (h : net.Built config) (hp : net.Plain) (hs : net.Brief) :
    Json.asRead net.exported = net.asRead.exported := by
  obtain ⟨s, -, hschema⟩ := hp.schema
  have harc : ∀ arc ∈ net.arcs, Json.asRead arc.exported =
      Arc.exported { arc with inhibit := Json.asRead arc.inhibit } := by
    intro arc harc
    obtain ⟨w, -, hweight⟩ := (h.exportable.proper arc harc).weight
    simp only [Arc.exported, Json.asRead_named, List.map_cons, List.map_nil, hweight]
    rfl
  have harcs : Json.asRead (.list (net.arcs.map Arc.exported)) =
      .list (net.asRead.arcs.map Arc.exported) := by
    rw [Json.asRead_list, asRead, List.map_map, List.map_map]
    exact congrArg Datum.list (List.map_congr_left harc)
  simp only [exported, Json.asRead_named, List.map_cons, List.map_nil, hschema, harcs,
    (hs.portable_places hp).read, (h.portable_transitions hp hs).read]
  rw [show net.asRead.schema = .text s from hschema]
  rfl

/-- Whatever the text is read as, nothing but the net's own declaration comes of it. -/
theorem Built.ofText_eq_ok (h : net.Built config) (hp : net.Plain) (hs : net.Brief)
    {layout : Json.Layout} (hl : layout.Blank) {cs : List Char}
    (hcs : Json.write layout 0 net.exported = .ok cs) {g : Glossary} {d : Declaration}
    (hd : Declaration.ofText g (String.ofList cs) = Checked.ok d) :
    (∀ arc ∈ net.arcs, arc.inhibit.truth?.isSome = true) ∧ d = net.declaration := by
  have hread := Json.read?_write hl hcs
  rw [Declaration.ofText, String.toList_ofList, hread] at hd
  split at hd
  next data hdata =>
    split at hdata
    next =>
      rw [← Option.some.inj hdata, h.asRead_exported hp hs] at hd
      obtain ⟨hall, hd⟩ := (hp.asRead.check_eq_ok h.exportable.asRead).1 hd
      refine ⟨fun arc harc => ?_, hd.trans (declaration_asRead net)⟩
      rw [← Datum.truth?_asRead]
      exact hall _ (List.mem_map_of_mem harc)
    next => cases hdata
  next => cases hd

/-- The net that is loaded from the text of the net's export. -/
def reloadText (indent : Datum) (g : Glossary) (self : Nat) (config : Config) (net : Net) :
    Except Failure Net := do
  let data ← net.toDatum
  let text ← written (← Bench.layoutOf indent) data
  let declaration ← Declaration.parse g (.text text)
  (Declaration.load .arcs self { config } declaration).1

variable {config' : Config} {g : Glossary} {self : Nat} {loaded : Net}

theorem written_eq_ok {layout : Json.Layout} {data : Datum} {text : String} :
    written layout data = .ok text ↔
      ∃ cs, Json.write layout 0 data = .ok cs ∧ text = String.ofList cs := by
  unfold written
  split
  next cs hcs => simp [hcs, eq_comm]
  next hcs => simp [hcs]
  next hcs => simp [hcs]

/-- The way through the text. -/
theorem reloadText_eq_ok (hp : net.Plain) (he : net.Exportable config) {indent : Datum} :
    net.reloadText indent g self config' = .ok loaded ↔ ∃ layout cs declaration,
      Bench.layoutOf indent = .ok layout ∧ Json.write layout 0 net.exported = .ok cs ∧
        Declaration.ofText g (String.ofList cs) = Checked.ok declaration ∧
          (Declaration.load .arcs self { config := config' } declaration).1 = .ok loaded := by
  rw [reloadText, bind_eq_ok]
  simp only [hp.toDatum_eq he, Except.ok.injEq, exists_eq_left', bind_eq_ok,
    written_eq_ok, Declaration.parse_eq_ok, Declaration.ofDatum]
  constructor
  · rintro ⟨layout, hlayout, _, ⟨cs, hcs, rfl⟩, declaration, hread, hload⟩
    exact ⟨layout, cs, declaration, hlayout, hcs, hread, hload⟩
  · rintro ⟨layout, cs, declaration, hlayout, hcs, hread, hload⟩
    exact ⟨layout, hlayout, _, ⟨cs, hcs, rfl⟩, declaration, hread, hload⟩

/-- The text loads if the export does, to what the export loads to. -/
theorem Built.reloadText_eq_ok_iff (h : net.Built config) (hp : net.Plain) (hs : net.Brief)
    (hi : ∀ arc ∈ net.arcs, ∀ bytes, arc.inhibit ≠ .bytes bytes) {indent : Datum}
    (hindent : Bench.Indents indent) :
    net.reloadText indent g self config' = .ok loaded ↔
      net.reload .arcs g self config' = .ok loaded := by
  obtain ⟨layout, hlayout, hblank⟩ := hindent.layoutOf
  rw [reload_eq_ok hp h.exportable, reloadText_eq_ok hp h.exportable]
  constructor
  · rintro ⟨layout', cs, declaration, hlayout', hcs, hread, hload⟩
    cases hlayout.symm.trans hlayout'
    obtain ⟨hall, rfl⟩ := h.ofText_eq_ok hp hs hblank hcs hread
    exact ⟨hall, hload⟩
  · rintro ⟨hall, hload⟩
    have hportable := h.portable_exported hp hs fun arc harc => ⟨hall arc harc, hi arc harc⟩
    obtain ⟨cs, hcs⟩ := hportable.written layout 0
    have hread : Json.read? cs = some net.exported := by
      rw [Json.read?_write hblank hcs, hportable.read]
      exact if_pos (hportable.depth.trans (by decide))
    refine ⟨layout, cs, net.declaration, hlayout, hcs, ?_, hload⟩
    rw [Declaration.ofText, String.toList_ofList, hread]
    exact (hp.check_eq_ok h.exportable).2 ⟨hall, rfl⟩

/-- Bytes have no form in text, so a net is not written where an arc has them for what inhibits. -/
theorem reloadText_ne_ok (hp : net.Plain) (he : net.Exportable config) {arc : Arc}
    (harc : arc ∈ net.arcs) {bytes : List UInt8} (hi : arc.inhibit = .bytes bytes)
    {indent : Datum} : net.reloadText indent g self config' ≠ .ok loaded := by
  intro h
  obtain ⟨layout, cs, -, -, hcs, -⟩ := (reloadText_eq_ok hp he).1 h
  obtain ⟨n, cs, hcs⟩ := Json.written_of_mem_named hcs
    (e := ("arcs", .list (net.arcs.map Arc.exported))) (by simp)
  obtain ⟨n, cs, hcs⟩ := Json.written_of_mem_list hcs (List.mem_map_of_mem harc)
  obtain ⟨n, cs, hcs⟩ := Json.written_of_mem_named hcs (e := ("inhibit", arc.inhibit)) (by simp)
  rw [hi] at hcs
  cases hcs

end Net

namespace Draft

variable {config config' : Config} {d d' : Draft}

/-- The text of a plain net that was built loads exactly if its export does, and to the same net,
whatever configuration it is loaded under. -/
theorem Reached.reload_text (h : Reached config d) (hb : apply build d = (.ok (), d'))
    (hp : d'.net.Plain) (hs : d'.net.Brief)
    (hi : ∀ arc ∈ d'.net.arcs, ∀ bytes, arc.inhibit ≠ .bytes bytes) {indent : Datum}
    (hindent : Bench.Indents indent) (g : Glossary) (self : Nat) (loaded : Net) :
    d'.net.reloadText indent g self config' = .ok loaded ↔
      d'.net.reload .arcs g self config' = .ok loaded :=
  (h.built hb).reloadText_eq_ok_iff hp hs hi hindent

end Draft

/-! ## A net with and without text -/

namespace Kiosk

set_option maxRecDepth 8000 in
theorem places_built (inhibit : Datum) : (built inhibit).net.places =
    [⟨"stock", 3, 5, ⟨.int 1, .float one⟩⟩, ⟨"till", 0, 0, ⟨.int 0, .int 0⟩⟩] := by
  have hnet := (Draft.build_ok (apply_build inhibit)).1
  rw [hnet, Net.places_index]
  rfl

theorem brief (inhibit : Datum) : (built inhibit).net.Brief := by
  have hsmall : ∀ n : Int, n.natAbs < 10 → Decimal.Brief n := fun n hn =>
    hn.trans_le (Nat.le_self_pow (by decide) 10)
  refine ⟨?_, ?_, ?_, ?_⟩
  · rw [Net.size, places_built]
    exact hsmall 2 (by decide)
  · rw [places_built]
    simp only [List.forall_mem_cons]
    exact ⟨hsmall 3 (by decide), hsmall 0 (by decide), fun _ h => absurd h List.not_mem_nil⟩
  · rw [places_built]
    simp only [List.forall_mem_cons]
    exact ⟨hsmall 5 (by decide), hsmall 0 (by decide), fun _ h => absurd h List.not_mem_nil⟩
  · rw [arcs_built]
    simp only [List.forall_mem_cons, Datum.int.injEq]
    refine ⟨?_, ?_, ?_, ?_, fun _ h => absurd h List.not_mem_nil⟩ <;> rintro w rfl <;>
      exact hsmall _ (by decide)

theorem reload_true : (built (.bool true)).net.reload .arcs Origin.bare.glossary 0 .default =
    .ok (built (.bool true)).net.reread := by
  have hbuilt := (reached_draft (.bool true)).built (apply_build _)
  refine hbuilt.reload_eq_reread (plain _) ?_ Origin.bare.glossary 0
  rw [arcs_built]
  simp

set_option maxRecDepth 8000 in
/-- The bytes of the digit one are read as true. -/
theorem declaration_bytes : (built (.bytes [0x31])).net.declaration =
    (built (.bool true)).net.declaration := rfl

end Kiosk

namespace Draft

theorem kiosk_reload_text :
    (Kiosk.built (.bool true)).net.reloadText (.int 2) Origin.bare.glossary 0 .default =
      .ok (Kiosk.built (.bool true)).net.reread := by
  refine ((Kiosk.reached_draft (.bool true)).reload_text (Kiosk.apply_build _) (Kiosk.plain _)
    (Kiosk.brief _) ?_ (Or.inr ⟨2, by decide, by decide, rfl⟩) Origin.bare.glossary 0 _).2
    Kiosk.reload_true
  rw [Kiosk.arcs_built]
  simp

/-- Two nets that load from their export and have no text: bytes for what inhibits have no form in
it, and indenting by a number beyond all sizes fails, although a negative one asks for no blanks. -/
theorem kiosk_text_refused :
    (Reached .default (Kiosk.draft (.bytes [0x31])) ∧
      apply build (Kiosk.draft (.bytes [0x31])) = (.ok (), Kiosk.built (.bytes [0x31])) ∧
      (Kiosk.built (.bytes [0x31])).net.Plain ∧ (Kiosk.built (.bytes [0x31])).net.Brief ∧
      (∃ loaded, (Kiosk.built (.bytes [0x31])).net.reload .arcs Origin.bare.glossary 0 .default =
        .ok loaded) ∧
      ∀ loaded, (Kiosk.built (.bytes [0x31])).net.reloadText .null Origin.bare.glossary 0 .default ≠
        .ok loaded) ∧
    (Reached .default (Kiosk.draft (.bool true)) ∧
      apply build (Kiosk.draft (.bool true)) = (.ok (), Kiosk.built (.bool true)) ∧
      (Kiosk.built (.bool true)).net.Plain ∧ (Kiosk.built (.bool true)).net.Brief ∧
      (∃ loaded, (Kiosk.built (.bool true)).net.reload .arcs Origin.bare.glossary 0 .default =
        .ok loaded) ∧
      ∀ loaded, (Kiosk.built (.bool true)).net.reloadText (.int (-10 ^ 30)) Origin.bare.glossary 0
        .default ≠ .ok loaded) := by
  have hexportable : ∀ inhibit, (Kiosk.built inhibit).net.Exportable .default := fun inhibit =>
    ((Kiosk.reached_draft inhibit).built (Kiosk.apply_build _)).exportable
  refine ⟨⟨Kiosk.reached_draft _, Kiosk.apply_build _, Kiosk.plain _, Kiosk.brief _, ?_, ?_⟩,
    Kiosk.reached_draft _, Kiosk.apply_build _, Kiosk.plain _, Kiosk.brief _,
    ⟨_, Kiosk.reload_true⟩, ?_⟩
  · have htrue := ((Net.reload_eq_ok (Kiosk.plain _) (hexportable _)).1 Kiosk.reload_true).2
    rw [← Kiosk.declaration_bytes] at htrue
    refine ⟨_, (Net.reload_eq_ok (Kiosk.plain _) (hexportable _)).2 ⟨?_, htrue⟩⟩
    rw [Kiosk.arcs_built]
    simp only [List.forall_mem_cons]
    exact ⟨rfl, rfl, rfl, rfl, fun _ h => absurd h List.not_mem_nil⟩
  · intro loaded
    have hmem : (⟨.place "till", .transition "sell", .int 4, .bytes [0x31]⟩ : Arc) ∈
        (Kiosk.built (.bytes [0x31])).net.arcs := by
      rw [Kiosk.arcs_built]
      simp
    exact Net.reloadText_ne_ok (Kiosk.plain _) (hexportable _) hmem rfl
  · intro loaded h
    obtain ⟨layout, cs, declaration, hlayout, -⟩ :=
      (Net.reloadText_eq_ok (Kiosk.plain _) (hexportable _)).1 h
    exact absurd (Bench.layoutOf_int_eq_ok.1 hlayout).1 (by decide)

end Draft

end TokenNet
