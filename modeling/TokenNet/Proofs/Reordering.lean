import Mathlib
import TokenNet.Proofs.Agreement
import TokenNet.Proofs.Alike
/-!
The order in which nodes are declared.  It decides at which offsets vectors hold their counts and
nothing else: if two nets were declared with the same nodes, in any order, and with the same arcs,
in the same order, then streams over them answer any requests alike and record the same, place by
place.  Main statement: `Draft.Reached.declaration_order`.
-/

namespace TokenNet

open Act

/-- The same nodes, maybe in another order, and the same arcs in the same order. -/
structure Net.Rearranged (net net' : Net) : Prop where
  schema : net'.schema = net.schema
  discipline : net'.discipline = net.discipline
  places : (net.places.map fun p => (p.label, p.initial, p.capacity)).Perm
    (net'.places.map fun p => (p.label, p.initial, p.capacity))
  transitions : (net.transitions.map fun t => (t.label, t.role)).Perm
    (net'.transitions.map fun t => (t.label, t.role))
  arcs : net'.arcs = net.arcs

namespace Net

variable {net net' : Net}

/-- The labels of places in the order of their offsets. -/
def offsets (net : Net) : List String := net.places.map Place.label

theorem offset?_getElem? {label : String} {i : Nat} (h : net.offset? label = some i) :
    net.offsets[i]? = some label :=
  getElem?_of_offset? h

theorem emptyVector_eq (net : Net) : net.emptyVector = Vec.zeros net.offsets.length := by
  rw [emptyVector, offsets, List.length_map]
  rfl

theorem Declared.nodup_offsets (h : net.Declared) : net.offsets.Nodup :=
  (List.nodup_append.1 h.distinct).1

theorem Rearranged.offsets (h : net.Rearranged net') : net.offsets.Perm net'.offsets := by
  simpa only [Net.offsets, List.map_map, Function.comp_def] using h.places.map Prod.fst

theorem Rearranged.labels (h : net.Rearranged net') :
    (net.transitions.map Transition.label).Perm (net'.transitions.map Transition.label) := by
  simpa only [List.map_map, Function.comp_def] using h.transitions.map Prod.fst

/-- An arc says the same of both nets, or nothing of either. -/
theorem Rearranged.link? (h : net.Rearranged net') (arc : Arc) :
    Option.Rel (Link.Agree net.offsets net'.offsets) (net.link? arc) (net'.link? arc) := by
  have hsome : (net.link? arc).isSome = true ↔ (net'.link? arc).isSome = true := by
    have hplaces : ∀ l, l ∈ net.places.map Place.label ↔ l ∈ net'.places.map Place.label :=
      fun l => h.offsets.mem_iff
    simp only [isSome_link?, hplaces, h.labels.mem_iff]
  cases hl : net.link? arc with
  | none =>
    cases hl' : net'.link? arc with
    | none => exact .none
    | some link' => simp [hl, hl'] at hsome
  | some link =>
    cases hl' : net'.link? arc with
    | none => simp [hl, hl'] at hsome
    | some link' =>
      obtain ⟨hw, hj, ho, -⟩ := link?_eq_some_iff.1 hl
      obtain ⟨hw', hj', ho', -⟩ := link?_eq_some_iff.1 hl'
      simp only [hj, Option.some.injEq, Prod.mk.injEq] at hj'
      obtain ⟨hkind, hplace, htransition⟩ := hj'
      refine .some ⟨hkind.symm, hplace.symm, htransition.symm, ?_, offset?_getElem? ho, ?_⟩
      · exact Option.some.inj (hw'.symm.trans hw)
      · rw [hplace]
        exact offset?_getElem? ho'

theorem Rearranged.links (h : net.Rearranged net') :
    List.Forall₂ (Link.Agree net.offsets net'.offsets) net.links net'.links := by
  unfold Net.links
  rw [h.arcs]
  induction net.arcs with
  | nil => exact .nil
  | cons arc rest ih =>
    have hlink := h.link? arc
    simp only [List.filterMap_cons]
    generalize net.link? arc = said, net'.link? arc = said' at hlink
    cases hlink with
    | none => exact ih
    | some hl => exact .cons hl ih

/-- Among distinct labels, a transition of either net has its counterpart in the other. -/
theorem Rearranged.transition? (h : net.Rearranged net') (hd' : net'.Declared) (label : String) :
    Option.Rel (fun t t' : Transition => t'.label = t.label ∧ t'.role = t.role)
      (net.transition? label) (net'.transition? label) := by
  cases ht : net.transition? label with
  | none =>
    have hnone : ¬(net'.transition? label).isSome = true := by
      rw [isSome_transition?, ← h.labels.mem_iff, ← isSome_transition?, ht]
      simp
    rw [Option.not_isSome_iff_eq_none.1 hnone]
    exact .none
  | some t =>
    have hmem := List.mem_of_find?_eq_some ht
    have hfound := List.find?_some ht
    have hlabel : t.label = label := of_decide_eq_true hfound
    obtain ⟨t', hmem', heq⟩ := List.mem_map.1 (h.transitions.mem_iff.1 (List.mem_map_of_mem hmem))
    obtain ⟨hlabel', hrole⟩ := Prod.mk.inj heq
    rw [← hlabel, ← hlabel', transition?_of_mem hd'.distinct hmem']
    exact .some ⟨hlabel', hrole⟩

theorem transition?_index (h : net.Declared) (label : String) :
    net.index.1.transition? label =
      (net.transition? label).map (Transition.compiled net.emptyVector net.links) := by
  rw [index_fst h.hasArcs]
  simp only [transition?, List.find?_map, Function.comp_def, Transition.label_compiled]

/-- Put to use, nets that were declared in another order make engines that agree. -/
theorem Rearranged.engine (h : net.Rearranged net') (hd : net.Declared) (hd' : net'.Declared) :
    Engine.Agree net.offsets net'.offsets
      { net := net.index.1, capacity := net.index.1.capacityVector }
      { net := net'.index.1, capacity := net'.index.1.capacityVector } := by
  have hn := hd.nodup_offsets
  have hinitial := h.places.map fun p : String × Int × Int => (p.1, p.2.1)
  have hcapacity := h.places.map fun p : String × Int × Int => (p.1, p.2.2)
  simp only [List.map_map, Function.comp_def] at hinitial hcapacity
  refine ⟨?_, ?_, ?_, ?_, fun label => ?_⟩
  · simp only [index_fst hd.hasArcs, index_fst hd'.hasArcs, h.schema]
  · simp only [index_fst hd.hasArcs, index_fst hd'.hasArcs, h.discipline]
  · simp only [initialVector, places_index]
    exact Vec.agree_of_perm hn hinitial
  · simp only [capacityVector, places_index]
    exact Vec.agree_of_perm hn hcapacity
  · have ht := h.transition? hd' label
    simp only [transition?_index hd, transition?_index hd', emptyVector_eq]
    generalize net.transition? label = found, net'.transition? label = found' at ht
    cases ht with
    | none => exact .none
    | some ht =>
      exact .some (Transition.agree_compiled hn hd'.nodup_offsets ht.1 ht.2 h.links)

end Net

/-! ## Streams -/

variable {ls ls' : List String}

/-- The same net was decided on, and what was decided agrees. -/
structure Decision.Agree (ls ls' : List String) (d d' : Decision) : Prop where
  key : d'.key = d.key
  shot : d.shot.Agree ls ls' d'.shot
  next : Vec.Agree ls ls' d.next d'.next

structure Outcome.Agree (ls ls' : List String) (o o' : Outcome) : Prop where
  action : o'.action = o.action
  multiplier : o'.multiplier = o.multiplier
  marking : Option.Rel (Vec.Agree ls ls') o.marking o'.marking
  role : o'.role = o.role
  ok : o'.ok = o.ok

structure Entry.Agree (ls ls' : List String) (entry entry' : Entry) : Prop where
  seq : entry'.seq = entry.seq
  event : entry'.event = entry.event
  marking : Vec.Agree ls ls' entry.marking entry'.marking
  time : entry'.time = entry.time

namespace Stream

variable {ω : Type} {s s' : Stream ω} {catalog catalog' : Catalog} {e : Event} {d d' : Decision}

/-- The same keys are registered, with engines that agree, and what is held and told agrees. -/
structure Agree (ls ls' : List String) (catalog catalog' : Catalog) (s s' : Stream ω) : Prop where
  nets : ∀ key, Option.Rel (fun inst inst' : Installation =>
    (inst.engine catalog).Agree ls ls' (inst'.engine catalog')) (s.nets.lookup? key)
      (s'.nets.lookup? key)
  markings : ∀ key, Option.Rel (Vec.Agree ls ls') (s.markings.lookup? key)
    (s'.markings.lookup? key)
  seq : s'.seq = s.seq
  history : List.Forall₂ (Entry.Agree ls ls') s.history s'.history

theorem Agree.lookup (h : s.Agree ls ls' catalog catalog' s') (schema : Datum) :
    Failure.Matched (fun found found' : Key × Installation => found'.1 = found.1 ∧
        (found.2.engine catalog).Agree ls ls' (found'.2.engine catalog'))
      (s.lookup schema) (s'.lookup schema) := by
  unfold Stream.lookup
  cases keyOf schema with
  | error failure => exact .error failure
  | ok key =>
    have hnets := h.nets key
    simp only [bind, Except.bind]
    generalize s.nets.lookup? key = inst, s'.nets.lookup? key = inst' at hnets
    cases hnets with
    | none => exact .error _
    | some he => exact .ok ⟨rfl, he⟩

theorem Agree.held (h : s.Agree ls ls' catalog catalog' s') (key : Key) {inst inst' : Installation}
    (he : (inst.engine catalog).Agree ls ls' (inst'.engine catalog')) :
    Vec.Agree ls ls' (s.held catalog key inst) (s'.held catalog' key inst') := by
  have hmarkings := h.markings key
  unfold Stream.held
  generalize s.markings.lookup? key = held, s'.markings.lookup? key = held' at hmarkings
  cases hmarkings with
  | none => exact he.initial
  | some hv => exact hv

theorem Agree.marking (h : s.Agree ls ls' catalog catalog' s') (schema : Datum) :
    Failure.Matched (Vec.Agree ls ls') (s.marking catalog schema) (s'.marking catalog' schema) := by
  refine (h.lookup schema).bind ?_
  rintro ⟨key, inst⟩ ⟨_, inst'⟩ ⟨rfl, he⟩
  exact .ok (h.held _ he)

theorem Agree.decide (h : s.Agree ls ls' catalog catalog' s') (hp : ls.Perm ls') (e : Event) :
    Failure.Matched (Decision.Agree ls ls') (s.decide catalog e) (s'.decide catalog' e) := by
  refine (h.lookup e.schema).bind ?_
  rintro ⟨key, inst⟩ ⟨_, inst'⟩ ⟨rfl, he⟩
  exact (he.fire hp (h.held _ he) e.action e.multiplier).bind fun _ _ hfired =>
    .ok ⟨rfl, hfired.1, hfired.2⟩

theorem Agree.decided (h : s.Agree ls ls' catalog catalog' s') (hp : ls.Perm ls') (r : Request) :
    Failure.Matched (fun told told' : Event × Decision => told'.1 = told.1 ∧
        told.2.Agree ls ls' told'.2)
      (s.decided catalog r) (s'.decided catalog' r) := by
  unfold Stream.decided
  cases Event.ofRequest r with
  | error failure => exact .error failure
  | ok e => exact (h.decide hp e).bind fun _ _ hd => .ok ⟨rfl, hd⟩

theorem Agree.commit (h : s.Agree ls ls' catalog catalog' s') (hd : d.Agree ls ls' d')
    (hself : d.key.selfEqual = true) (time : Datum) :
    (s.commit e d time).Agree ls ls' catalog catalog' (s'.commit e d' time) := by
  refine ⟨h.nets, fun key => ?_, congrArg (· + 1) h.seq, ?_⟩
  · rw [lookup?_commit hself, lookup?_commit (hd.key ▸ hself), hd.key]
    split
    · exact .some hd.next
    · exact h.markings key
  · exact List.rel_append h.history (.cons ⟨h.seq, rfl, hd.next, rfl⟩ .nil)

end Stream

namespace World

variable {ω : Type} {w w' : World ω} {call : ω → Outcome → Act (World ω) Outcome}
  {callReload : ω → Datum → Act (World ω) Unit}

/-- Streams that agree at the same time, with nobody to tell. -/
structure Agree (ls ls' : List String) (w w' : World ω) : Prop where
  stream : w.stream.Agree ls ls' w.catalog w'.catalog w'.stream
  timebase : w'.timebase = w.timebase
  unobserved : w.stream.Unobserved
  unobserved' : w'.stream.Unobserved

/-- One request is answered alike and leaves streams that agree. -/
theorem Agree.dispatch (h : w.Agree ls ls' w') (hp : ls.Perm ls') (r : Request) :
    Failure.Matched (Outcome.Agree ls ls') (apply ((site call callReload).dispatch r) w).1
        (apply ((site call callReload).dispatch r) w').1 ∧
      (after ((site call callReload).dispatch r) w).Agree ls ls'
        (after ((site call callReload).dispatch r) w') := by
  have hdecided := h.stream.decided hp r
  have hself : ∀ e d, w.stream.decided w.catalog r = .ok (e, d) → d.key.selfEqual = true :=
    fun _ _ => Stream.selfEqual_of_decided
  simp only [after, apply_dispatch_unobserved h.unobserved, apply_dispatch_unobserved h.unobserved']
  generalize w.stream.decided w.catalog r = told, w'.stream.decided w'.catalog r = told'
    at hdecided hself
  cases hdecided with
  | error failure => exact ⟨.error failure, h⟩
  | @ok told told' htold =>
    obtain ⟨e, d⟩ := told
    obtain ⟨e', d'⟩ := told'
    obtain ⟨he, hd⟩ := htold
    obtain rfl : e' = e := he
    have hok : d'.shot.ok = d.shot.ok := hd.shot.ok
    simp only [hok, h.timebase]
    cases d.shot.ok with
    | false => exact ⟨.ok ⟨rfl, rfl, hd.shot.result, hd.shot.role, rfl⟩, h⟩
    | true =>
      refine ⟨.ok ⟨rfl, rfl, .some hd.next, hd.shot.role, rfl⟩,
        h.stream.commit hd (hself _ d rfl) _, rfl, ?_, ?_⟩
      · exact ⟨h.unobserved.onAction, h.unobserved.onEvery, h.unobserved.onFail,
          h.unobserved.onReload⟩
      · exact ⟨h.unobserved'.onAction, h.unobserved'.onEvery, h.unobserved'.onFail,
          h.unobserved'.onReload⟩

/-- The induction over the requests. -/
theorem Agree.answers (h : w.Agree ls ls' w') (hp : ls.Perm ls') (rs : List Request) :
    List.Forall₂ (Failure.Matched (Outcome.Agree ls ls'))
        (World.answers (site call callReload) rs w).1
        (World.answers (site call callReload) rs w').1 ∧
      (World.answers (site call callReload) rs w).2.Agree ls ls'
        (World.answers (site call callReload) rs w').2 := by
  induction rs generalizing w w' with
  | nil => exact ⟨.nil, h⟩
  | cons r rest ih =>
    obtain ⟨hanswer, hnext⟩ := @Agree.dispatch ls ls' ω w w' call callReload h hp r
    obtain ⟨hmore, hend⟩ := ih hnext
    exact ⟨.cons hanswer hmore, hend⟩

/-- New streams over nets whose engines agree. -/
theorem ofNet_agree {net net' : Net} (hi : net.indexed = true) (hi' : net'.indexed = true)
    {s : String} (hs : net.schema = .text s)
    (he : Engine.Agree ls ls' { net, capacity := net.capacityVector }
      { net := net', capacity := net'.capacityVector }) (timebase : Timebase) (config : Config) :
    ∃ w w' : World ω, ofNet net timebase config = .ok w ∧ ofNet net' timebase config = .ok w' ∧
      w.Agree ls ls' w' := by
  obtain ⟨w, hw, hcatalog, htimebase, hstream⟩ := @ofNet_of_indexed ω net hi s hs timebase config
  obtain ⟨w', hw', hcatalog', htimebase', hstream'⟩ :=
    @ofNet_of_indexed ω net' hi' s (he.schema.trans hs) timebase config
  refine ⟨w, w', hw, hw', ?_, htimebase'.trans htimebase.symm, ?_, ?_⟩
  · rw [hstream, hstream', hcatalog, hcatalog']
    refine ⟨fun key => ?_, fun key => ?_, rfl, .nil⟩
    · simp only [Register.lookup?, Table.find?]
      split
      · split
        · exact .some he
        · exact .none
      · exact .none
    · simp only [Register.lookup?, Table.find?_nil, Option.map_none, ite_self]
      exact .none
  · rw [hstream]
    exact ⟨rfl, rfl, rfl, rfl⟩
  · rw [hstream']
    exact ⟨rfl, rfl, rfl, rfl⟩

end World

namespace Draft

variable {config config' : Config} {d d' built built' : Draft} {ω : Type}
  {call : ω → Outcome → Act (World ω) Outcome} {callReload : ω → Datum → Act (World ω) Unit}

/-- Two drafts declare the same nodes, each in an order of its own, and the same arcs in the same
order, and both are built.  Then streams over the two nets give the same answer to every request of
any sequence, be it a failure or an outcome: the same flags and roles, and markings that agree label
by label, or none in both.  So do the current markings in the end and the markings of history. -/
theorem Reached.declaration_order (h : Reached config d) (h' : Reached config' d')
    (hb : apply build d = (.ok (), built)) (hb' : apply build d' = (.ok (), built'))
    (hnet : d.net.Rearranged d'.net) {s : String} (hs : d.net.schema = .text s)
    (timebase : Timebase) (used : Config) :
    ∃ w w' : World ω, World.ofNet built.net timebase used = .ok w ∧
      World.ofNet built'.net timebase used = .ok w' ∧ ∀ rs,
        let run := World.answers (World.site call callReload) rs w
        let run' := World.answers (World.site call callReload) rs w'
        List.Forall₂ (Failure.Matched (Outcome.Agree d.net.offsets d'.net.offsets)) run.1 run'.1 ∧
          (∀ schema, Failure.Matched (Vec.Agree d.net.offsets d'.net.offsets)
            (run.2.stream.marking run.2.catalog schema)
            (run'.2.stream.marking run'.2.catalog schema)) ∧
          List.Forall₂ (Entry.Agree d.net.offsets d'.net.offsets) run.2.stream.history
            run'.2.stream.history := by
  obtain ⟨hbuilt, -⟩ := build_ok hb
  obtain ⟨hbuilt', -⟩ := build_ok hb'
  have hi : built.net.indexed = true := by
    rw [hbuilt, Net.indexed_index, h.declared.index_snd]
    rfl
  have hi' : built'.net.indexed = true := by
    rw [hbuilt', Net.indexed_index, h'.declared.index_snd]
    rfl
  have hschema : built.net.schema = .text s := by
    rw [hbuilt, Net.index_fst h.declared.hasArcs]
    exact hs
  have hengine := hnet.engine h.declared h'.declared
  rw [← hbuilt, ← hbuilt'] at hengine
  obtain ⟨w, w', hw, hw', hagree⟩ :=
    @World.ofNet_agree _ _ ω _ _ hi hi' s hschema hengine timebase used
  refine ⟨w, w', hw, hw', fun rs => ?_⟩
  obtain ⟨hanswers, hend⟩ :=
    @World.Agree.answers _ _ ω w w' call callReload hagree hnet.offsets rs
  exact ⟨hanswers, fun schema => hend.stream.marking schema, hend.stream.history⟩

end Draft

/-! ## A net that was declared twice -/

namespace Bakery

def place (label : String) (initial capacity : Int) (x : Int) : Draft.Step :=
  .place (.text label) (.int initial) (.int capacity) (.position (.int x) (.int 0))

/-- Nothing is baked while four loaves are left. -/
def arcs : List Draft.Step :=
  [.arc (.place "flour") (.transition "bake") (.int 1) (.bool false),
    .arc (.transition "bake") (.place "bread") (.int 2) (.bool false),
    .arc (.place "bread") (.transition "bake") (.int 4) (.bool true)]

def bake : Draft.Step := .transition (.text "bake") (.text "baker") .null

def start : Draft := { self := 0, net := { schema := .text "bakery" }, config := .default }

def draft : Draft := start.follow ([place "flour" 2 3 0, place "bread" 0 0 1, bake] ++ arcs)

def draft' : Draft := start.follow ([bake, place "bread" 0 0 7, place "flour" 2 3 5] ++ arcs)

def request (action : String) (k : Int) : Request :=
  { value := .text "bakery", action := .text action, multiplier := .int k }

/-- The second is more than there is flour for, the fourth is held back by the bread that is left,
and the last is of no transition. -/
def requests : List Request :=
  [request "bake" 1, request "bake" 5, request "bake" 1, request "bake" 1, request "sell" 1]

def built : Draft := after Draft.build draft

/-- Nobody observes, so this is never called. -/
def call (_ : Unit) (o : Outcome) : Act (World Unit) Outcome := pure o

def callReload (_ : Unit) (_ : Datum) : Act (World Unit) Unit := pure ()

def world : World Unit :=
  match World.ofNet built.net .wall .default with
  | .ok w => w
  | .error _ => {}

theorem reached_start : Draft.Reached .default start :=
  @Draft.Reached.opened .default 0 (.text "bakery") (.text "petriNet") _ rfl

theorem rearranged : draft.net.Rearranged draft'.net := by
  refine ⟨rfl, rfl, ?_, ?_, rfl⟩
  · exact List.Perm.swap _ _ _
  · exact List.Perm.refl _

theorem ofNet_built : World.ofNet built.net .wall .default = .ok world := rfl

theorem markings_answered : (World.answers (World.site call callReload) requests world).1.map
    (fun answer => answer.toOption.map Outcome.marking) =
      [some (some [1, 2]), some (some [-4, 12]), some (some [0, 4]), some none, none] := by cbv

theorem marking_left : (World.answers (World.site call callReload) requests world).2.stream.marking
    (World.answers (World.site call callReload) requests world).2.catalog (.text "bakery") =
      .ok [0, 4] := by cbv

end Bakery

namespace Draft

open Bakery

/-- The other way round, the bread comes first in every vector.  So its four loaves, and no flour,
stand there at the other offset. -/
theorem bakery_declaration_order : ∃ (built' : Draft) (w' : World Unit) (last : Vec),
    apply build draft' = (.ok (), built') ∧ World.ofNet built'.net .wall .default = .ok w' ∧
      draft.net.offsets = ["flour", "bread"] ∧ draft'.net.offsets = ["bread", "flour"] ∧
      (World.answers (World.site call callReload) requests world).1.map
        (fun answer => answer.toOption.map Outcome.marking) =
          [some (some [1, 2]), some (some [-4, 12]), some (some [0, 4]), some none, none] ∧
      List.Forall₂ (Failure.Matched (Outcome.Agree ["flour", "bread"] ["bread", "flour"]))
        (World.answers (World.site call callReload) requests world).1
        (World.answers (World.site call callReload) requests w').1 ∧
      (World.answers (World.site call callReload) requests w').2.stream.marking
        (World.answers (World.site call callReload) requests w').2.catalog (.text "bakery") =
          .ok last ∧ last[0]? = some 4 ∧ last[1]? = some 0 := by
  have hreached : Reached .default draft := reached_start.follow _
  have hreached' : Reached .default draft' := reached_start.follow _
  have hb : apply build draft = (.ok (), built) := by
    obtain ⟨notes, h⟩ := apply_build hreached.declared.index_snd
    rw [built, after, h]
  obtain ⟨notes, hb'⟩ := apply_build hreached'.declared.index_snd
  obtain ⟨w, w', hw, hw', hruns⟩ := @Reached.declaration_order _ _ _ _ _ _ Unit Bakery.call
    Bakery.callReload hreached hreached' hb hb' rearranged _ rfl .wall .default
  obtain rfl : w = world := Except.ok.inj (hw.symm.trans ofNet_built)
  obtain ⟨hanswers, hmarking, -⟩ := hruns requests
  have hlast := hmarking (.text "bakery")
  rw [marking_left] at hlast
  generalize hleft : Stream.marking _ _ (.text "bakery") = left at hlast
  cases hlast with
  | @ok _ last hagree =>
    have hbread : [(0 : Int), 4][1]? = last[0]? :=
      @Vec.Agree.getElem? _ _ _ _ 1 0 "bread" hagree rfl rfl
    have hflour : [(0 : Int), 4][0]? = last[1]? :=
      @Vec.Agree.getElem? _ _ _ _ 0 1 "flour" hagree rfl rfl
    exact ⟨_, w', last, hb', hw', rfl, rfl, markings_answered, hanswers, hleft, hbread.symm,
      hflour.symm⟩

end Draft

end TokenNet
