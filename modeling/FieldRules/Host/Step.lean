import FieldRules.Bag.Step
import FieldRules.Host

/-!
# What a host does

The steps of a host, one by one, with what each answers. A step that fails answers with the fault
and keeps what happened before it. So a session is a run of a host through a list of steps.
-/

namespace FieldRules

/-- A definition as a step gives it: handed over, or taken from the catalog. -/
inductive GivenDefinition where
  | supplied (s : Supplied)
  | registered (name : String)

/-- A step of one engine. -/
inductive EngineStep where
  | attach (field rules : String)
  | detach (field : String)
  | hasField (field : String)
  | rulesFor (field : String)
  | fields
  | describe
  | setLocale (locale : Key)
  | validate (field : String) (value extra : Value)
  | validateAll (values : String → Value)
  | bag (s : Bag.Step)
  | extend (name : String) (d : GivenDefinition)
  | overlay (name : String)

/-- A step of the catalog. -/
inductive CatalogStep where
  | register (name : String) (d : GivenDefinition)
  | names
  | has (name : String)
  | get (name : String)
  | clear
  | reset
  /-- Looks a name up through an overlay without names of its own. -/
  | overlay (name : String)

/-- A step of the dictionary. -/
inductive DictionaryStep where
  | update (partials : Dictionary.Partial)
  | set (locale name : Key) (message : Message)
  | get (locale name : Key) (field : String) (params : List Value)
  | hasLocale (locale : Key)
  | locales
  | clear
  | reset
  /-- Puts an item at a path, if there is one, and loads what stands there. -/
  | loadFile (path : Path) (item : Option FolderItem)
  /-- Puts files into a directory, if there are any, and loads the directory. -/
  | loadDirectory (path : Path) (files : Option (List (String × FolderItem)))

/-- A step of a registry of owners. -/
inductive OwnerStep where
  | create (rules : Table String (List Rule))
  | register (owner newName : String)
  | unregister (owner : String)
  | get (owner : String)
  | has (owner : String)
  | size
  | clear

/-- A step of a host. -/
inductive Step where
  | create (engine : String) (e : Engine)
  | engine (name : String) (s : EngineStep)
  | catalog (s : CatalogStep)
  | dictionary (s : DictionaryStep)
  | owners (registry : String) (s : OwnerStep)
  | start (jobs : List Nat)
  | release (gate : String) (passed : Bool)
  | setProbe (probe : Probe)

/-- What a step answers. -/
inductive Reply where
  | nothing
  | truth (b : Bool)
  | number (n : Nat)
  | text (s : String)
  | texts (ss : List String)
  | rules (rs : List Rule)
  | fields (fs : Table String (List Rule))
  | bag (r : Bag.Reply)
  | definition (d : Option Definition)
  | overlay (names : List String) (has : Bool) (resolved : Option Definition)
  /-- An engine with its fields and its locale. -/
  | engine (fields : List String) (locale : Key)
  /-- The engine of an owner, by its name and its fields. -/
  | owned (engine : String) (fields : List String)
  /-- The name of the engine of an owner, if there is one. -/
  | owner (engine : Option String)
  /-- The text that a message makes, if there is a message. -/
  | message (text : Option String)
  /-- The number of the job that a validation is. -/
  | pending (job : Nat)
  /-- The jobs that were done, with their results. -/
  | done (results : List (Nat × Bool))

namespace Host

/-- A step that leaves no notes. -/
def silent {α : Type} (r : α) : Noted α := ⟨r, []⟩

/-- The definition that is handed over. -/
def supplied (h : Host) : GivenDefinition → Supplied
  | .supplied s => s
  | .registered name => match h.shared.catalog.get? name with
    | some d => .definition d
    | none => .other Value.null.kindName

/-- The fault of a setup error. -/
def refused {α : Type} (r : Except SetupError α) : Except Fault α := r.mapError .setup

/-! ## Engines -/

/-- A step of an engine with a number. -/
def engineStep (h : Host) (number : Nat) (e : Engine) :
    EngineStep → Host × Noted (Except Fault Reply)
  | .attach field text =>
    let rules := Rule.readAll text
    (h.setEngine number (e.attach field rules), silent (.ok (.text (Engine.fieldText field rules))))
  | .detach field =>
    (h.setEngine number (e.detach field), silent (.ok (.truth (e.hasField field))))
  | .hasField field => (h, silent (.ok (.truth (e.hasField field))))
  | .rulesFor field => (h, silent (.ok (.rules (e.rulesFor field))))
  | .fields => (h, silent (.ok (.fields e.fields)))
  | .describe => (h, silent (.ok (.text e.toText)))
  | .setLocale locale => (h.setEngine number (e.setLocale locale), silent (.ok .nothing))
  | .validate field value extra =>
    let (e, answer) := e.validate h.shared field value extra
    let h := h.setEngine number e
    match answer.result with
    | .error f => (h, ⟨.error f, answer.notes⟩)
    | .ok (.known passed) => (h, ⟨.ok (.truth passed), answer.notes⟩)
    | .ok (.pending p) =>
      let (h, job) := h.addJob number (.ofField p)
      (h, ⟨.ok (.pending job), answer.notes⟩)
  | .validateAll values =>
    let (e, answer) := e.validateAll h.shared values
    let h := h.setEngine number e
    match answer.result with
    | .known passed => (h, ⟨.ok (.truth passed), answer.notes⟩)
    | .pending verdicts =>
      let (h, job) := h.addJob number (.ofForm verdicts)
      (h, ⟨.ok (.pending job), answer.notes⟩)
  | .bag s =>
    let (bag, reply) := e.bag.step s
    (h.setEngine number { e with bag }, silent (.ok (.bag reply)))
  | .extend name d =>
    let (e, result) := e.extend name (h.supplied d)
    (h.setEngine number e, silent ((refused result).map fun d => .definition (some d)))
  | .overlay name =>
    let resolved := e.overlay.resolve h.shared.catalog name
    (h, silent (.ok (.overlay e.overlay.names (e.overlay.has name) resolved)))

/-! ## What engines share -/

/-- Puts another catalog in place. -/
def setCatalog (h : Host) (catalog : Catalog) : Host :=
  { h with shared := { h.shared with catalog } }

/-- Puts another dictionary in place. -/
def setDictionary (h : Host) (dictionary : Dictionary) : Host :=
  { h with shared := { h.shared with dictionary } }

/-- A step of the catalog. -/
def catalogStep (h : Host) : CatalogStep → Host × Except Fault Reply
  | .register name d =>
    let (catalog, dictionary, result) :=
      h.shared.catalog.register h.shared.dictionary name (h.supplied d)
    ({ h with shared := { catalog, dictionary } },
      (refused result).map fun d => .definition (some d))
  | .names => (h, .ok (.texts h.shared.catalog.names))
  | .has name => (h, .ok (.truth (h.shared.catalog.has name)))
  | .get name => (h, .ok (.definition (h.shared.catalog.get? name)))
  | .clear => (h.setCatalog {}, .ok .nothing)
  | .reset => (h.setCatalog Builtin.catalog, .ok .nothing)
  | .overlay name =>
    let o : Overlay := {}
    (h, .ok (.overlay o.names (o.has name) (o.resolve h.shared.catalog name)))

/-- A dictionary after a merge, which may have met a flaw. -/
def merged (h : Host) (r : Dictionary × Except DictionaryFlaw Unit) : Host × Except Fault Reply :=
  (h.setDictionary r.1, (r.2.mapError LocaleFile.flawed).map fun () => .nothing)

/-- A step of the dictionary. -/
def dictionaryStep (h : Host) : DictionaryStep → Host × Except Fault Reply
  | .update partials => h.merged (h.shared.dictionary.update partials)
  | .set locale name message => h.merged (h.shared.dictionary.setMessage locale name message)
  | .get locale name field params => match h.shared.dictionary.get? locale name with
    | none => (h, .ok (.message none))
    | some f => (h, (f field params).map fun v => .message (some v.asText))
  | .hasLocale locale => (h, .ok (.truth (h.shared.dictionary.hasLocale locale)))
  | .locales => (h, h.shared.dictionary.sortedLocales.map .texts)
  | .clear => (h.setDictionary Dictionary.cleared, .ok .nothing)
  | .reset => (h.setDictionary Dictionary.bundled, .ok .nothing)
  | .loadFile path item =>
    let folder := match item with
      | some item => h.folder.put path item
      | none => h.folder
    let (dictionary, result) := h.shared.dictionary.loadFile folder path
    ({ h with folder }.setDictionary dictionary, result.map fun () => .nothing)
  | .loadDirectory path files =>
    let folder := match files with
      | some files => h.folder.putAll path files
      | none => h.folder
    let (dictionary, result) := h.shared.dictionary.loadDirectory folder path
    ({ h with folder }.setDictionary dictionary,
      result.map fun paths => .texts (paths.map Path.toText))

/-! ## Owners -/

/-- A step of a registry of owners. -/
def ownerStep (h : Host) (registry : String) : OwnerStep → Host × Reply
  | .create rules => (h.addRegistry registry rules, .nothing)
  | .register owner newName =>
    let (h, name, e) := h.registerOwner registry owner newName
    (h, .owned name e.fieldNames)
  | .unregister owner =>
    let owners := (h.registry registry).owners
    (h.setOwners registry (owners.unregister owner), .truth (owners.has owner))
  | .get owner => (h, .owner (((h.registry registry).owners.get? owner).bind h.nameOf?))
  | .has owner => (h, .truth ((h.registry registry).owners.has owner))
  | .size => (h, .number (h.registry registry).owners.size)
  | .clear => (h.setOwners registry {}, .nothing)

/-! ## Steps and runs -/

/-- The host after a step, and what the step answers. -/
def step (h : Host) : Step → Host × Noted (Except Fault Reply)
  | .create name e =>
    let (h, number) := h.addEngine e
    (h.giveName name number, silent (.ok (.engine e.fieldNames e.locale)))
  | .engine name s => match h.number? name, h.engine? name with
    | some number, some e => h.engineStep number e s
    | _, _ => (h, silent (.error .unknownWord))
  | .catalog s =>
    let (h, r) := h.catalogStep s
    (h, silent r)
  | .dictionary s =>
    let (h, r) := h.dictionaryStep s
    (h, silent r)
  | .owners registry s =>
    let (h, r) := h.ownerStep registry s
    (h, silent (.ok r))
  | .start jobs =>
    let started := h.startJobs jobs
    let (h, results) := started.result.settle
    (h, ⟨.ok (.done (inOrder jobs results)), started.notes⟩)
  | .release gate passed =>
    let (h, results) := (h.openGate gate passed).settle
    (h, silent (.ok (.done (inOrder (List.range h.jobs.length) results))))
  | .setProbe probe => ({ h with probe }, silent (.ok .nothing))

/-- The host after a list of steps, and what each answers. -/
def run (h : Host) : List Step → Host × List (Noted (Except Fault Reply))
  | [] => (h, [])
  | s :: ss =>
    let (h, answer) := h.step s
    let (h, answers) := run h ss
    (h, answer :: answers)

end Host

end FieldRules
