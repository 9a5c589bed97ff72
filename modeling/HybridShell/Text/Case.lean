import HybridShell.Text.Cased

/-!
# Upper and lower case

Most letters come in runs of equal distance; a few become several characters.
A capital sigma at the end of a word becomes its final form.
-/

namespace HybridShell

namespace Case

/-- Characters at equal steps that all change case by the same distance. -/
structure Run where
  first : Nat
  last : Nat
  step : Nat
  distance : Int

namespace Run

def holds (run : Run) (code : Nat) : Bool :=
  run.first ≤ code && code ≤ run.last && (code - run.first) % run.step == 0

def single : Nat × Int → Run
  | (code, distance) => ⟨code, code, 1, distance⟩

def inverse (run : Run) : Run :=
  { first := (run.first + run.distance).toNat
    last := (run.last + run.distance).toNat
    step := run.step
    distance := -run.distance }

end Run

/-- Small letters right behind their capitals, from the first to the last of a stretch. -/
def upperPairs : List (Nat × Nat) :=
  [(257,303),(307,311),(314,328),(331,375),(378,382),(387,389),(392,392),(396,396),(402,402),
    (409,409),(417,421),(424,424),(429,429),(432,432),(436,438),(441,441),(445,445),(453,453),
    (456,456),(459,459),(462,476),(479,495),(498,498),(501,501),(505,543),(547,563),(572,572),
    (578,578),(583,591),(881,883),(887,887),(985,1007),(1016,1016),(1019,1019),(1121,1153),
    (1163,1215),(1218,1230),(1233,1327),(7306,7306),(7681,7829),(7841,7935),(8580,8580),
    (11361,11361),(11368,11372),(11379,11379),(11382,11382),(11393,11491),(11500,11502),
    (11507,11507),(42561,42605),(42625,42651),(42787,42799),(42803,42863),(42874,42876),
    (42879,42887),(42892,42892),(42897,42899),(42903,42921),(42933,42947),(42952,42954),
    (42957,42971),(42998,42998)]

def upperStretches : List Run :=
  [⟨224, 246, 1, -32⟩, ⟨248, 254, 1, -32⟩, ⟨575, 576, 1, 10815⟩, ⟨598, 599, 1, -205⟩,
    ⟨650, 651, 1, -217⟩, ⟨891, 893, 1, 130⟩, ⟨941, 943, 1, -37⟩, ⟨945, 961, 1, -32⟩,
    ⟨963, 971, 1, -32⟩, ⟨973, 974, 1, -63⟩, ⟨1072, 1103, 1, -32⟩, ⟨1104, 1119, 1, -80⟩,
    ⟨1377, 1414, 1, -48⟩, ⟨4304, 4346, 1, 3008⟩, ⟨4349, 4351, 1, 3008⟩, ⟨5112, 5117, 1, -8⟩,
    ⟨7299, 7300, 1, -6242⟩, ⟨7936, 7943, 1, 8⟩, ⟨7952, 7957, 1, 8⟩, ⟨7968, 7975, 1, 8⟩,
    ⟨7984, 7991, 1, 8⟩, ⟨8000, 8005, 1, 8⟩, ⟨8017, 8023, 2, 8⟩, ⟨8032, 8039, 1, 8⟩,
    ⟨8048, 8049, 1, 74⟩, ⟨8050, 8053, 1, 86⟩, ⟨8054, 8055, 1, 100⟩, ⟨8056, 8057, 1, 128⟩,
    ⟨8058, 8059, 1, 112⟩, ⟨8060, 8061, 1, 126⟩, ⟨8112, 8113, 1, 8⟩, ⟨8144, 8145, 1, 8⟩,
    ⟨8160, 8161, 1, 8⟩, ⟨8560, 8575, 1, -16⟩, ⟨9424, 9449, 1, -26⟩, ⟨11312, 11359, 1, -48⟩,
    ⟨11520, 11557, 1, -7264⟩, ⟨43888, 43967, 1, -38864⟩, ⟨65345, 65370, 1, -32⟩,
    ⟨66600, 66639, 1, -40⟩, ⟨66776, 66811, 1, -40⟩, ⟨66967, 67003, 2, -39⟩, ⟨66968, 66976, 2, -39⟩,
    ⟨66980, 66992, 2, -39⟩, ⟨66996, 67000, 2, -39⟩, ⟨68800, 68850, 1, -64⟩, ⟨68976, 68997, 1, -32⟩,
    ⟨71872, 71903, 1, -32⟩, ⟨93792, 93823, 1, -32⟩, ⟨93883, 93907, 1, -27⟩,
    ⟨125218, 125251, 1, -34⟩]

def upperSingles : List (Nat × Int) :=
  [(181,743),(255,121),(305,-232),(383,-300),(384,195),(405,97),(410,163),(411,42561),(414,130),
    (447,56),(454,-2),(457,-2),(460,-2),(477,-79),(499,-2),(592,10783),(593,10780),(594,10782),
    (595,-210),(596,-206),(601,-202),(603,-203),(604,42319),(608,-205),(609,42315),(611,-207),
    (612,42343),(613,42280),(614,42308),(616,-209),(617,-211),(618,42308),(619,10743),(620,42305),
    (623,-211),(625,10749),(626,-213),(629,-214),(637,10727),(640,-218),(642,42307),(643,-218),
    (647,42282),(648,-218),(649,-69),(652,-71),(658,-219),(669,42261),(670,42258),(837,84),
    (940,-38),(962,-31),(972,-64),(976,-62),(977,-57),(981,-47),(982,-54),(983,-8),(1008,-86),
    (1009,-80),(1010,7),(1011,-116),(1013,-96),(1231,-15),(7296,-6254),(7297,-6253),(7298,-6244),
    (7301,-6243),(7302,-6236),(7303,-6181),(7304,35266),(7545,35332),(7549,3814),(7566,35384),
    (7835,-59),(8126,-7205),(8165,7),(8526,-28),(11365,-10795),(11366,-10792),(11559,-7264),
    (11565,-7264),(42900,48),(43859,-928),(67004,-39)]

def upperRuns : List Run :=
  upperPairs.map (fun (first, last) => ⟨first, last, 2, -1⟩) ++ upperStretches
    ++ upperSingles.map Run.single

/-- Letters with a small iota below or behind, in groups of eight, and the capitals without it. -/
def iotaGroups : List (Nat × Nat) :=
  [(8064, 7944), (8072, 7944), (8080, 7976), (8088, 7976), (8096, 8040), (8104, 8040)]

def upperSequences : List (Nat × List Nat) :=
  iotaGroups.flatMap (fun (first, capital) =>
      (List.range 8).map fun place => (first + place, [capital + place, 921]))
    ++ [(223, [83, 83]), (329, [700, 78]), (496, [74, 780]), (912, [921, 776, 769]),
      (944, [933, 776, 769]), (1415, [1333, 1362]), (7830, [72, 817]), (7831, [84, 776]),
      (7832, [87, 778]), (7833, [89, 778]), (7834, [65, 702]), (8016, [933, 787]),
      (8018, [933, 787, 768]), (8020, [933, 787, 769]), (8022, [933, 787, 834]),
      (8114, [8122, 921]), (8115, [913, 921]), (8116, [902, 921]), (8118, [913, 834]),
      (8119, [913, 834, 921]), (8124, [913, 921]), (8130, [8138, 921]), (8131, [919, 921]),
      (8132, [905, 921]), (8134, [919, 834]), (8135, [919, 834, 921]), (8140, [919, 921]),
      (8146, [921, 776, 768]), (8147, [921, 776, 769]), (8150, [921, 834]),
      (8151, [921, 776, 834]), (8162, [933, 776, 768]), (8163, [933, 776, 769]),
      (8164, [929, 787]), (8166, [933, 834]), (8167, [933, 776, 834]), (8178, [8186, 921]),
      (8179, [937, 921]), (8180, [911, 921]), (8182, [937, 834]), (8183, [937, 834, 921]),
      (8188, [937, 921]), (64256, [70, 70]), (64257, [70, 73]), (64258, [70, 76]),
      (64259, [70, 70, 73]), (64260, [70, 70, 76]), (64261, [83, 84]), (64262, [83, 84]),
      (64275, [1348, 1350]), (64276, [1348, 1333]), (64277, [1348, 1339]), (64278, [1358, 1350]),
      (64279, [1348, 1341])]

/-- Capitals whose small letter has another capital, or none. -/
def ownLowerRuns : List Run :=
  [⟨8072, 8079, 1, -8⟩, ⟨8088, 8095, 1, -8⟩, ⟨8104, 8111, 1, -8⟩] ++
    ([(452, 2), (453, 1), (455, 2), (456, 1), (458, 2), (459, 1), (497, 2), (498, 1), (921, 32),
      (924, 32), (931, 32), (1012, -60), (7838, -7615), (8124, -9), (8140, -9), (8188, -9),
      (8486, -7517), (8490, -8383), (8491, -8262), (42570, 1)] : List (Nat × Int)).map Run.single

def lowerRuns : List Run :=
  ownLowerRuns ++ upperRuns.map Run.inverse

def lowerSequences : List (Nat × List Nat) :=
  [(304, [105, 775])]

def mapped (runs : List Run) (sequences : List (Nat × List Nat)) (character : Char) : List Char :=
  match sequences.lookup character.toNat with
  | some codes => codes.map Char.ofNat
  | none =>
    match runs.find? (·.holds character.toNat) with
    | some run => [Char.ofNat ((character.toNat : Int) + run.distance).toNat]
    | none => [character]

def upperCharacter (character : Char) : List Char :=
  if character.toNat < 128 then [character.toUpper]
  else mapped upperRuns upperSequences character

def lowerCharacter (character : Char) : List Char :=
  if character.toNat < 128 then [character.toLower]
  else mapped lowerRuns lowerSequences character

/-- Text in small letters; what was read before is in reverse order. -/
def lowerFrom (before : List Char) : List Char → List Char
  | [] => []
  | character :: rest =>
    let small :=
      if character = 'Σ' then
        if Text.meetsCased before && !Text.meetsCased rest then ['ς'] else ['σ']
      else lowerCharacter character
    small ++ lowerFrom (character :: before) rest

def upper (text : String) : String :=
  String.ofList (text.toList.flatMap upperCharacter)

def lower (text : String) : String :=
  String.ofList (lowerFrom [] text.toList)

end Case

end HybridShell
