import ViewMarkup.Build.Open

/-!
# The profile screen

A small screen with a header, a table of choices and a few controls. It shows what a host does:
settings in a file, a namespace with a component of its own, outlets and bindings of an owner.
-/

namespace ViewMarkup.Demo

/-- The settings of the screen. -/
def settingsText : String := "[markup]
resource_root = \"resources\"
strings_file = \"strings.json\"
inert_instructions = [\"xml-stylesheet\", \"comment\", \"designer\"]

[markup.namespaces]
demo = \"examples.markup_demo.widgets\"

[markup.colors]
accent = \"#3366FF\"
muted = \"#8894A6\"
link = \"accent\"

[markup.constants]
gutter = 12
"

/-- The screen itself. -/
def mainText : String := "<?xml version=\"1.0\" encoding=\"UTF-8\"?>
<?designer preview=\"iphone\"?>
<Column spacing=\"gutter\" backgroundColor=\"#FFFFFF\" layer.cornerRadius=\"6\">
    <?include Header?>
    <ScrollView fitToWidth=\"true\">
        <TableView id=\"table_view\">
            <section name=\"account\" title=\"Account\"/>
            <TableViewCell text=\"@name\" value=\"name\" bind.detailText=\"user_name\"/>
            <section name=\"colors\"/>
            <sectionHeader/>
            <Label text=\"Favorite color\" textColor=\"muted\"/>
            <TableViewCell value=\"red\" checked=\"true\">Red</TableViewCell>
            <TableViewCell value=\"green\">Green</TableViewCell>
            <TableViewCell value=\"blue\">Blue</TableViewCell>
        </TableView>
    </ScrollView>
    <SegmentedControl id=\"size_control\" selectedSegmentIndex=\"1\">
        <segment title=\"S\" value=\"small\"/>
        <segment title=\"M\" value=\"medium\"/>
        <segment title=\"L\" value=\"large\"/>
    </SegmentedControl>
    <Label id=\"status_label\" font=\"Helvetica-Bold,13\" textAlignment=\"center\" bind.text=\"status\"/>
    <Button id=\"save_button\" normalTitle=\"@save\" normalTitleColor=\"accent\" disabledTitleColor=\"muted\"/>
</Column>
"

/-- The header of the screen. -/
def headerText : String := "<?xml version=\"1.0\" encoding=\"UTF-8\"?>
<Row spacing=\"gutter\" alignment=\"center\" layoutMarginTop=\"8\">
    <Label text=\"@title\" font=\"headline\" textColor=\"accent\"/>
    <Spacer/>
    <demo:Badge xmlns:demo=\"demo\" count=\"3\" backgroundColor=\"link\"/>
</Row>
"

/-- The localized texts of the screen. -/
def stringsText : String := "\x7b
  \"title\": \"Profile\",
  \"name\": \"Name\",
  \"notifications\": \"Notifications\",
  \"save\": \"Save\"
\x7d
"

/-- The bytes of a text file. -/
def textFile (s : String) : Content := .bytes s.toUTF8.toList

/-- The files of the screen. -/
def files : Files where
  entries := [
    (["markup.toml"], textFile settingsText),
    (["resources", "MainView.xml"], textFile mainText),
    (["resources", "Header.xml"], textFile headerText),
    (["resources", "strings.json"], textFile stringsText)]

/-- The name of the class of the owner. -/
def ownerName : String := "ProfileController"

/-- The owner of the screen: outlets that are empty at first, and two values that are bound. -/
def owner (userName status : Blueprint) : Blueprint :=
  .object (.host ownerName [] true) [
    ("table_view", .value .none), ("size_control", .value .none),
    ("status_label", .value .none), ("save_button", .value .none),
    ("user_name", userName), ("status", status)]

/-- The operation of the owner that tells the chosen size. -/
def sizeOperation : Operation := { name := "selected_size" }

/-- The size that is chosen on the screen, if there is a control for it. -/
def selectedSize (sc : Scene) (id : ObjectId) : Except Failure Value :=
  match sc.stored id "size_control" with
  | .none => .ok .none
  | control => sc.requireAttribute control "selected_value"

/-- Builds the screen for an owner. The resources are those of the screen, whatever the world
has. -/
def build (library : Library) (platform : String) (owner : ObjectId) (w : World) :
    Except Failure ObjectId × World :=
  match Settings.load files {} "markup.toml" with
  | .error failure => (.error failure, w)
  | .ok settings =>
    let (builder?, registries) :=
      (Builder.open library platform files settings View.Catalog.defaultRegistry).run w.registries
    match builder? with
    | .error failure => (.error failure, { w with registries })
    | .ok builder =>
      let (answer, after) :=
        builder.buildNamed "MainView" (some owner) none
          { w with registries, loader := settings.loader }
      (answer, { after with loader := w.loader })

end ViewMarkup.Demo
