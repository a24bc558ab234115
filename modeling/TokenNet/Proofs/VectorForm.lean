import TokenNet.Proofs.Nodes
import TokenNet.Proofs.ObjectForm
/-!
Which declarations load in object form.  Main statement: `Declaration.load_object`.  The vectors
come from outside, and they are held against the places only once these are laid out.  What passes
is all that a firing relies on: on a net so loaded, nothing that a declared action is asked for
fails.
-/

namespace TokenNet

/-- A guard of the data inhibits by the place under its key, and by no other: its delta takes from
this place, wherever it is laid out, and leaves the others alone. -/
structure GuardEntry.Fits (laid : List (String × PlaceEntry)) (key : String) (g : GuardEntry) :
    Prop where
  place : key ∈ laid.map Prod.fst
  label : ∀ l, g.label = some l → l = "" ∨ l = key
  size : g.delta.length = laid.length
  entries : ∀ (i : Nat) (e : String × PlaceEntry) (n : Int), laid[i]? = some e →
    g.delta[i]? = some n → if e.1 = key then n < 0 else n = 0

/-- A transition of the data has a delta with an entry for each place, and its guards fit. -/
structure TransitionEntry.Fits (laid : List (String × PlaceEntry)) (t : TransitionEntry) :
    Prop where
  delta : ∃ v, t.delta = some v ∧ v.length = laid.length
  guards : ∀ key g, (key, g) ∈ t.guards → g.Fits laid key

/-! ## Nothing fails on vectors that fit -/

namespace Engine

/-- Whatever the action is asked for, it is answered. -/
structure Serves (e : Engine) (marking : Vec) (action value : Datum) : Prop where
  guardCheck : ∃ active, e.guardCheck marking action value = .ok active
  arithmeticFails : ∃ shot, e.arithmeticFails marking action value = .ok shot
  test : ∃ shot, e.test marking action value = .ok shot
  fire : ∃ shot next, e.fire marking action value = .ok (shot, next)

variable {e : Engine} {marking : Vec} {action value : Datum} {t : Transition} {k : Int}

theorem serves_of_fits (hv : e.net.VectorsFit) (hc : e.capacity.length = e.net.size)
    (hm : marking.length = e.net.size) (ht : e.transition action = .ok t)
    (hk : multiplier value = .ok k) : e.Serves marking action value := by
  have hmem := transition_mem ht
  have hany := anyActive_eq (e := e) (k := k) (length_guards hv hc hm hmem)
  have hadd : e.add marking t.delta k = .ok ⟨Vec.moved marking t.delta k,
      Vec.within e.capacity (Vec.moved marking t.delta k)⟩ :=
    add_eq_ok.2 ⟨hm.trans (hv.delta t hmem).symm, (hv.delta t hmem).trans hc.symm, rfl⟩
  have htest : ∃ shot, e.test marking action value = .ok shot := by
    simp only [test, ht, hk, bind, Except.bind, hany]
    split
    · exact ⟨_, rfl⟩
    · rw [hadd]
      exact ⟨_, rfl⟩
  obtain ⟨shot, hshot⟩ := htest
  refine ⟨⟨_, (guardCheck_eq ht hk).trans hany⟩, ?_, ⟨shot, hshot⟩, ?_⟩
  · simp only [arithmeticFails, ht, hk, bind, Except.bind, hadd]
    exact ⟨_, rfl⟩
  · rw [fire, hshot]
    exact ⟨_, _, rfl⟩

end Engine

namespace Declaration

open Act Draft

/-- A transition with the vectors of the data. -/
def laden (e : String × TransitionEntry) : Transition :=
  { transitionOf e with
    delta := e.2.delta.getD []
    guards := e.2.guards.map fun (place, g) => (place, guardOf place g) }

/-- The net with the vectors of the data, before they are checked. -/
def furnished (d : Declaration) (title : String) : Net :=
  { d.nodes title with
    arcsKept := .bool false
    transitions := d.transitions.map laden }

/-- Why the vectors of a declaration are turned down. -/
inductive Blemish (d : Declaration) (title : String) : Failure → Prop
  | noDelta (key : String) : (∃ e ∈ d.transitions, e.2.delta = none) →
      Blemish d title (.noDelta (.text title) key)
  | invalid : (∀ e ∈ d.transitions, e.2.delta ≠ none) →
      Blemish d title (.invalidVectors (.text title))

variable {decl : Declaration} {title key : String} {err : Failure} {config : Config} {d : Draft}
  {laid : List (String × PlaceEntry)} {g : GuardEntry}

theorem Blemish.family (h : Blemish decl title err) :
    (err.family = .declaration ∨ err.family = .indexing) ∧
      (err.family = .declaration ↔ ∃ e ∈ decl.transitions, e.2.delta = none) := by
  cases h with
  | noDelta key hnone => exact ⟨.inl rfl, iff_of_true rfl hnone⟩
  | invalid hgiven =>
    exact ⟨.inr rfl, iff_of_false (fun h => nomatch h) fun ⟨e, he, hnone⟩ => hgiven e he hnone⟩

theorem Blemish.met (h : Blemish decl title err) (scene : Scene) : err.met scene = err := by
  have hmessage : (err.message scene).isSome = true := by
    cases h <;> simp [Failure.message, Failure.about, isSome_phrase, Datum.plain]
  exact Failure.met_of_isSome hmessage

/-! ## What the check lets pass -/

theorem label_guardOf :
    (guardOf key g).label = key ↔ ∀ l, g.label = some l → l = "" ∨ l = key := by
  unfold guardOf
  cases g.label with
  | none => simp
  | some l => by_cases hl : l = "" <;> simp [hl, String.isEmpty_iff]

/-- A guard passes exactly if it fits. -/
theorem guardFits_guardOf {net : Net} (hn : net.labels.Nodup)
    (hnet : net.places = laid.map placeOf) :
    net.guardFits key (guardOf key g) = true ↔ g.Fits laid key := by
  have hsize : net.size = laid.length := by rw [Net.size, hnet, List.length_map]
  have hoffset : ∀ {i : Nat} {e : String × PlaceEntry}, laid[i]? = some e →
      net.offset? e.1 = some i := by
    intro i e hi
    have hplace : net.places[i]? = some (placeOf e) := by rw [hnet, List.getElem?_map, hi]; rfl
    exact Net.offset?_of_getElem? hn hplace
  -- A place stands under the key exactly if it stands at the offset of the key.
  have hkey : ∀ {i j : Nat} {e : String × PlaceEntry}, net.offset? key = some i →
      laid[j]? = some e → (j = i ↔ e.1 = key) := by
    intro i j e hi hj
    have hold := hoffset hj
    refine ⟨fun hji => ?_, fun he => Option.some.inj (hold.symm.trans (he ▸ hi))⟩
    have hplaces := Net.getElem?_of_offset? hi
    rw [hnet, List.getElem?_map, List.getElem?_map, ← hji, hj] at hplaces
    exact Option.some.inj hplaces
  rw [Net.guardFits_iff_entries, hsize]
  constructor
  · rintro ⟨i, hi, hlabel, hlen, hall⟩
    rw [← hlabel] at hi
    refine ⟨?_, label_guardOf.1 hlabel.symm, hlen, fun j e n hj hn => ?_⟩
    · have hmem := List.mem_of_getElem? (Net.getElem?_of_offset? hi)
      rwa [hnet, List.map_map] at hmem
    · exact (if_congr (hkey hi hj) rfl rfl).mp (hall j n hn)
  · intro hfits
    obtain ⟨e, he, rfl⟩ := List.mem_map.1 hfits.place
    obtain ⟨i, hi⟩ := List.mem_iff_getElem?.1 he
    have hlabel := label_guardOf.2 hfits.label
    refine ⟨i, hlabel.symm ▸ hoffset hi, hlabel.symm, hfits.size, fun j n hj => ?_⟩
    have hlt : j < laid.length := hfits.size ▸ (List.getElem?_eq_some_iff.1 hj).1
    have hget := List.getElem?_eq_getElem hlt
    exact (if_congr (hkey (hoffset hi) hget) rfl rfl).mpr (hfits.entries j laid[j] n hget hj)

theorem labels_furnished : (decl.furnished title).labels = (decl.nodes title).labels := by
  simp [furnished, nodes, Net.labels, laden, Function.comp_def]

/-- The vectors pass exactly if they fit. -/
theorem vectorsFit_furnished (hp : decl.Proper) (hfit : decl.NodesFit config) (title : String) :
    (∀ e ∈ decl.transitions, e.2.delta ≠ none) ∧ (decl.furnished title).VectorsFit ↔
      ∀ e ∈ decl.transitions, e.2.Fits decl.laid := by
  have hn : (decl.furnished title).labels.Nodup := labels_furnished ▸ nodup_labels_nodes hp hfit
  have hplaces : (decl.furnished title).places = decl.laid.map placeOf := rfl
  have hsize : (decl.furnished title).size = decl.laid.length := by
    rw [Net.size, hplaces, List.length_map]
  constructor
  · rintro ⟨hgiven, hv⟩ e he
    have hmem : laden e ∈ (decl.furnished title).transitions := List.mem_map_of_mem he
    obtain ⟨v, hdelta⟩ := Option.ne_none_iff_exists'.1 (hgiven e he)
    refine ⟨⟨v, hdelta, ?_⟩, fun key g hg => ?_⟩
    · have hlen := hv.delta (laden e) hmem
      rwa [hsize, laden, hdelta] at hlen
    · have hguard : (key, guardOf key g) ∈ (laden e).guards := List.mem_map_of_mem hg
      exact (guardFits_guardOf hn hplaces).1 (hv.guards _ hmem key _ hguard)
  · intro hall
    refine ⟨fun e he hnone => ?_, fun t ht => ?_, fun t ht key guard hguard => ?_⟩
    · obtain ⟨v, hdelta, -⟩ := (hall e he).delta
      rw [hnone] at hdelta
      cases hdelta
    · obtain ⟨e, he, rfl⟩ := List.mem_map.1 ht
      obtain ⟨v, hdelta, hlen⟩ := (hall e he).delta
      rw [hsize, laden, hdelta]
      exact hlen
    · obtain ⟨e, he, rfl⟩ := List.mem_map.1 ht
      obtain ⟨⟨key', g⟩, hg, heq⟩ := List.mem_map.1 hguard
      cases heq
      exact (guardFits_guardOf hn hplaces).2 ((hall e he).guards key g hg)

/-! ## Taking over the vectors -/

/-- The first transition takes its vectors, and no other does. -/
theorem apply_attachVectors_cons {e : String × TransitionEntry}
    {rest : List (String × TransitionEntry)} {done : List Transition} {v : Vec}
    (hv : e.2.delta = some v) (h : d.net.transitions = done ++ (e :: rest).map transitionOf)
    (hdone : e.1 ∉ done.map Transition.label) (hrest : e.1 ∉ rest.map Prod.fst) :
    apply (attachVectors (e :: rest)) d = apply (attachVectors rest)
      { d with net := { d.net with
        transitions := done ++ [laden e] ++ rest.map transitionOf } } := by
  obtain ⟨key, t⟩ := e
  let fill (s : Transition) : Transition :=
    { s with
      delta := v
      guards := t.guards.map fun (place, g) => (place, guardOf place g) }
  have hlabels : (rest.map transitionOf).map Transition.label = rest.map Prod.fst := by
    simp [transitionOf, Function.comp_def]
  have hfill : fill (transitionOf (key, t)) = laden (key, t) := by
    rw [laden, hv]
    rfl
  have hedit : (d.net.modifyTransition key fill).transitions =
      done ++ [laden (key, t)] ++ rest.map transitionOf := by
    rw [List.append_assoc, List.singleton_append, ← hfill]
    exact transitions_modifyTransition h fill hdone (hlabels ▸ hrest)
  replace hv : t.delta = some v := hv
  rw [attachVectors, hv, ← hedit]
  rfl

theorem settles_attachVectors {es : List (String × TransitionEntry)} {done : List Transition}
    (hschema : d.net.schema = .text title)
    (hnew : (done.map Transition.label ++ es.map Prod.fst).Nodup)
    (h : d.net.transitions = done ++ es.map transitionOf) :
    Settles (attachVectors es) d (∀ e ∈ es, e.2.delta ≠ none) ()
      { d with net := { d.net with transitions := done ++ es.map laden } }
      (fun err => ∃ key, err = .noDelta (.text title) key) := by
  induction es generalizing d done with
  | nil =>
    rw [List.map_nil] at h
    rw [List.map_nil, ← h]
    exact .inl ⟨fun _ he => absurd he List.not_mem_nil, rfl⟩
  | cons e rest ih =>
    cases hdelta : e.2.delta with
    | none =>
      refine .inr ⟨fun hall => hall e List.mem_cons_self hdelta, .noDelta (.text title) e.1, d, ?_,
        e.1, rfl⟩
      rw [attachVectors, hdelta, ← hschema]
      rfl
    | some v =>
      have hnodup := List.nodup_append.1 hnew
      have hdone : e.1 ∉ done.map Transition.label := fun hmem =>
        hnodup.2.2 _ hmem _ List.mem_cons_self rfl
      have hrest : e.1 ∉ rest.map Prod.fst := (List.nodup_cons.1 hnodup.2.1).1
      have hsplit : ((done ++ [laden e]).map Transition.label ++ rest.map Prod.fst).Nodup := by
        simpa [laden, transitionOf] using hnew
      have hrun := ih (d := { d with net := { d.net with
        transitions := done ++ [laden e] ++ rest.map transitionOf } }) hschema hsplit rfl
      have hjoin : done ++ [laden e] ++ rest.map laden = done ++ (e :: rest).map laden := by simp
      rw [hjoin] at hrun
      rw [Settles, apply_attachVectors_cons hdelta h hdone hrest, List.forall_mem_cons]
      exact hrun.congr (and_iff_right (by simp [hdelta])).symm

/-- The vectors are taken over and checked. -/
theorem settles_vectors (hp : decl.Proper) (hfit : decl.NodesFit config)
    (hd : d.net = { decl.nodes title with arcsKept := .bool false }) :
    ∃ d' : Draft, d'.net = { decl.furnished title with indexed := true } ∧
      Settles (do
        attachVectors decl.transitions
        unless ← Draft.index do throw (.invalidVectors (.text title))) d
        (∀ e ∈ decl.transitions, e.2.Fits decl.laid) () d' (Blemish decl title) := by
  let filled : Draft := { d with net := decl.furnished title }
  obtain ⟨notes, hindex⟩ := Draft.apply_index filled
  obtain ⟨hfst, hsnd⟩ := Net.index_of_not_hasArcs (show filled.net.hasArcs = false from rfl)
  let checked : Draft := { filled with net := { decl.furnished title with indexed := true }, notes }
  have hattach : Settles (attachVectors decl.transitions) d
      (∀ e ∈ decl.transitions, e.2.delta ≠ none) () filled (Blemish decl title) := by
    have hschema : d.net.schema = .text title := by rw [hd]; rfl
    have hnodes : d.net.transitions = [] ++ decl.transitions.map transitionOf := by rw [hd]; rfl
    have hdistinct : (([] : List Transition).map Transition.label ++
        decl.transitions.map Prod.fst).Nodup := hp.transitionKeys
    have hrun := settles_attachVectors hschema hdistinct hnodes
    rw [hd] at hrun
    refine hrun.mono fun err hno herr => ?_
    obtain ⟨key, rfl⟩ := herr
    push Not at hno
    exact .noDelta key hno
  have hcheck : (∀ e ∈ decl.transitions, e.2.delta ≠ none) →
      Settles (do unless ← Draft.index do throw (.invalidVectors (.text title))) filled
        (decl.furnished title).VectorsFit () checked (Blemish decl title) := by
    intro hgiven
    rw [Settles, apply_bind_of_ok hindex]
    by_cases hv : (decl.furnished title).VectorsFit
    · rw [hsnd.2 hv] at hfst
      rw [hfst, hsnd.2 hv]
      exact .inl ⟨hv, rfl⟩
    · have hflaws : filled.net.index.2.isEmpty = false :=
        Bool.eq_false_iff.2 fun h => hv (hsnd.1 (List.isEmpty_iff.1 h))
      rw [hflaws]
      exact .inr ⟨hv, _, _, rfl, .invalid hgiven⟩
  exact ⟨checked, rfl, (hattach.bind hcheck).congr (vectorsFit_furnished hp hfit title)⟩

/-- The object form goes through exactly if the vectors fit, once the nodes do. -/
theorem settles_objectForm (hp : decl.Proper) (hfit : decl.NodesFit config) (title : String)
    (self : Nat) :
    ∃ d' : Draft, d'.net = { decl.furnished title with indexed := true } ∧
      Settles (objectForm decl) (begun decl title self config)
        (∀ e ∈ decl.transitions, e.2.Fits decl.laid) () d' (Blemish decl title) := by
  rcases settles_declareNodes hp title self config with ⟨-, hnodes⟩ | ⟨hno, -⟩
  · unfold Settles
    rw [objectForm, apply_bind_of_ok hnodes, apply_bind_of_ok (apply_edit _ _),
      apply_bind_of_ok (apply_drafted _)]
    dsimp only
    -- The warning about arcs comes or does not; it changes nothing but the notes.
    split
    · exact settles_vectors hp hfit rfl
    · rw [Draft.report, apply_bind_of_ok (apply_modify _ _)]
      exact settles_vectors hp hfit rfl
  · exact absurd hfit hno

/-- On the net that is loaded, every declared action is answered whatever it is asked for. -/
theorem serves_furnished (hp : decl.Proper) (hfit : decl.NodesFit config)
    (hall : ∀ e ∈ decl.transitions, e.2.Fits decl.laid) {net : Net}
    (hnet : net = { decl.furnished title with indexed := true }) :
    ∃ engine, Engine.ofNet? net = .ok engine ∧
      ∀ (marking : Vec) (action : String) (k : Int), marking.length = decl.places.length →
        action ∈ Table.keys decl.transitions → 0 < k →
          engine.Serves marking (.text action) (.int k) := by
  subst hnet
  refine ⟨_, rfl, fun marking action k hm haction hk => ?_⟩
  have hv : (decl.furnished title).VectorsFit := ((vectorsFit_furnished hp hfit title).2 hall).2
  have hsize : (decl.furnished title).size = decl.places.length := by
    rw [← hfit.laid.perm.length_eq, furnished, Net.size, nodes, List.length_map]
  have hlabel : action ∈ (decl.furnished title).transitions.map Transition.label := by
    simpa [furnished, laden, transitionOf, Function.comp_def, Table.keys] using haction
  obtain ⟨t, ht⟩ := Option.isSome_iff_exists.1 (Net.isSome_transition?.2 hlabel)
  have hne : action.isEmpty = false := by
    rw [Bool.eq_false_iff, ne_eq, String.isEmpty_iff]
    rintro rfl
    exact hfit.named (List.mem_append_right _ haction)
  exact Engine.serves_of_fits (hv.congr rfl rfl) (Net.length_capacityVector _) (hm.trans hsize.symm)
    (Engine.transition_eq_ok.2 ⟨action, rfl, hne, ht⟩) (Engine.multiplier_eq_ok.2 ⟨rfl, hk⟩)

/-- Loading a declaration in object form, when there is a schema and the nodes fit.  It goes through
exactly if the vectors of every transition fit the places as they are laid out; the net then has the
vectors of the data and no arcs, and whatever a declared action is asked for is answered.  It fails
as a declaration if a delta is missing, and otherwise because the vectors do not pass; and that is
what is met of the failure. -/
theorem load_object (hp : decl.Proper) (self : Nat) (config : Config) (override : Option String)
    (htitle : decl.titleUnder override ≠ "") (hfit : decl.NodesFit config) :
    ∃ laid, Laid decl.places laid ∧
      ((∃ net, (decl.load .object self { schema := override.elim .null .text, config }).1 =
          .ok net) ↔ ∀ e ∈ decl.transitions, e.2.Fits laid) ∧
      (∀ net, (decl.load .object self { schema := override.elim .null .text, config }).1 =
          .ok net →
        net.places = laid.map placeOf ∧ net.transitions = decl.transitions.map laden ∧
        net.arcs = [] ∧ net.arcsKept = .bool false ∧ net.indexed = true ∧
        ∃ engine, Engine.ofNet? net = .ok engine ∧
          ∀ (marking : Vec) (action : String) (k : Int), marking.length = decl.places.length →
            action ∈ Table.keys decl.transitions → 0 < k →
              engine.Serves marking (.text action) (.int k)) ∧
      ∀ err, (decl.load .object self { schema := override.elim .null .text, config }).1 =
          .error err →
        (err.family = .declaration ∨ err.family = .indexing) ∧
        (err.family = .declaration ↔ ∃ e ∈ decl.transitions, e.2.delta = none) ∧
        ∀ scene : Scene, err.met scene = err := by
  obtain ⟨d', hnet, hform⟩ := settles_objectForm hp hfit (decl.titleUnder override) self
  refine ⟨decl.laid, hfit.laid, ?_⟩
  rcases load_cases (show Settles (Form.declare .object decl) _ _ () d' _ from hform) with
    ⟨-, hall, hok⟩ | ⟨hno, err, herr, he⟩
  · rw [hok]
    refine ⟨⟨fun _ => hall, fun _ => ⟨_, rfl⟩⟩, ?_, fun _ he => (nomatch he)⟩
    rintro net ⟨⟩
    have hserves := serves_furnished hp hfit hall hnet
    rw [hnet] at hserves ⊢
    exact ⟨rfl, rfl, rfl, rfl, rfl, hserves⟩
  · rw [herr]
    refine ⟨⟨fun ⟨net, hn⟩ => (nomatch hn), fun hall => absurd ⟨htitle, hall⟩ hno⟩,
      fun net hn => (nomatch hn), ?_⟩
    rintro _ ⟨⟩
    rcases he with ⟨hnone, -⟩ | ⟨-, hblemish⟩
    · exact absurd hnone htitle
    · exact ⟨hblemish.family.1, hblemish.family.2, hblemish.met⟩

end Declaration

/-! ## A transition under a guard -/

namespace Valve

/-- A valve that closes on what has passed.  The place behind it is listed first. -/
def data (a b : Int) : Datum := named [
  ("schema", .text "valve"),
  ("places", named [
    ("out", named [("offset", .int 1)]),
    ("in", named [("initial", .int 5), ("offset", .int 0)])]),
  ("transitions", named [("pass", named [
    ("delta", .list [.int (-1), .int 1]),
    ("guards", named [("out", named [("delta", .list [.int a, .int b])])])])])]

def declaration (a b : Int) : Declaration where
  schema := some "valve"
  places := [("out", { offset := some 1 }), ("in", { initial := 5, offset := some 0 })]
  transitions := [("pass", { delta := some [-1, 1], guards := [("out", { delta := [a, b] })] })]

variable {a b : Int} {laid : List (String × PlaceEntry)}

theorem ofDatum_data (a b : Int) :
    Declaration.ofDatum Origin.bare.glossary (data a b) = .ok (declaration a b) := rfl

theorem nodesFit (a b : Int) : (declaration a b).NodesFit .default where
  placeLabels := by simp [Declaration.Labelled, declaration]
  transitionLabels := by simp [Declaration.Labelled, declaration]
  offsets := .inr (List.Perm.swap (some 0) (some 1) [])
  named := by simp [declaration, Table.keys]
  apart := by simp [declaration, Table.keys]
  within := by simp [declaration, Declaration.Within]

theorem laid_eq (h : Declaration.Laid (declaration a b).places laid) :
    laid = [("in", { initial := 5, offset := some 0 }), ("out", { offset := some 1 })] := by
  have hat : ∀ (key : String) (p : PlaceEntry) (i : Nat), (key, p) ∈ (declaration a b).places →
      p.offset = some (i : Int) → laid[i]? = some (key, p) := by
    intro key p i hmem ho
    obtain ⟨j, hj⟩ := List.mem_iff_getElem?.1 (h.perm.mem_iff.2 hmem)
    rwa [Int.ofNat.inj (h.offsets j _ i hj ho)]
  have hin := hat "in" _ 0 (.tail _ (.head _)) rfl
  have hout := hat "out" _ 1 (.head _) rfl
  have hlen : laid.length = 2 := h.perm.length_eq
  match laid, hlen with
  | [e, e'], _ =>
    cases hin
    cases hout
    rfl

/-- The guard has to stand where its place is laid out, not where it is listed. -/
theorem fits_iff (h : Declaration.Laid (declaration a b).places laid) :
    (∀ e ∈ (declaration a b).transitions, e.2.Fits laid) ↔ a = 0 ∧ b < 0 := by
  rw [laid_eq h]
  constructor
  · intro hall
    have hentries := ((hall _ (.head _)).guards "out" _ (.head _)).entries
    exact ⟨hentries 0 _ a rfl rfl, hentries 1 _ b rfl rfl⟩
  · rintro ⟨rfl, hb⟩
    rw [declaration, List.forall_mem_singleton]
    refine ⟨⟨_, rfl, rfl⟩, fun key g hg => ?_⟩
    cases List.mem_singleton.1 hg
    refine ⟨by simp, by simp, rfl, fun i e n he hn => ?_⟩
    match i, he, hn with
    | 0, rfl, rfl => exact rfl
    | 1, rfl, rfl => exact hb

end Valve

namespace Declaration

/-- The valve loads and then answers whatever it is asked, and it does not load with the entries of
its guard in the order in which the places are listed. -/
theorem load_valve :
    (∃ net engine, ((Valve.declaration 0 (-3)).load .object 0 {}).1 = .ok net ∧
        Engine.ofNet? net = .ok engine ∧ engine.Serves [4, -7] (.text "pass") (.int 2)) ∧
      ∃ err, ((Valve.declaration (-3) 0).load .object 0 {}).1 = .error err ∧
        err.family = .indexing := by
  constructor
  · obtain ⟨laid, hlaid, hiff, hok, -⟩ :=
      load_object (proper_of_ofDatum (Valve.ofDatum_data 0 (-3))) 0 .default none (by decide)
        (Valve.nodesFit _ _)
    obtain ⟨net, hnet⟩ := hiff.2 ((Valve.fits_iff hlaid).2 ⟨rfl, by decide⟩)
    obtain ⟨-, -, -, -, -, engine, hengine, hserves⟩ := hok net hnet
    exact ⟨net, engine, hnet, hengine, hserves _ "pass" 2 rfl (.head _) (by decide)⟩
  · obtain ⟨laid, hlaid, hiff, -, herr⟩ :=
      load_object (proper_of_ofDatum (Valve.ofDatum_data (-3) 0)) 0 .default none (by decide)
        (Valve.nodesFit _ _)
    cases he : ((Valve.declaration (-3) 0).load .object 0 {}).1 with
    | ok net =>
      have hfits := (Valve.fits_iff hlaid).1 (hiff.1 ⟨net, he⟩)
      exact absurd hfits.1 (by decide)
    | error err =>
      obtain ⟨hfamily, hmissing, -⟩ := herr err he
      refine ⟨err, rfl, hfamily.resolve_left fun h => ?_⟩
      obtain ⟨e, hmem, hnone⟩ := hmissing.1 h
      cases List.mem_singleton.1 hmem
      cases hnone

end Declaration

end TokenNet
