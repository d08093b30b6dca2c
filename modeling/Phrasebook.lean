import Phrasebook.Catalog.Compiled
import Phrasebook.Locale.Switch
import Phrasebook.Main
import Phrasebook.Mark
import Phrasebook.Proofs.Catalog.Doubt
import Phrasebook.Proofs.Catalog.Locales
import Phrasebook.Proofs.Command.Exported
import Phrasebook.Proofs.Extract.Complete
import Phrasebook.Proofs.Extract.Embedded
import Phrasebook.Proofs.Extract.Recognition
import Phrasebook.Proofs.Extract.TemplateLiteral
import Phrasebook.Proofs.Locale.Handles
import Phrasebook.Proofs.Locale.Switching
import Phrasebook.Proofs.Markup.Blanked
import Phrasebook.Proofs.Markup.Closing
import Phrasebook.Proofs.Markup.Outline
import Phrasebook.Proofs.Markup.ReadBack
import Phrasebook.Proofs.Markup.TopLevel
import Phrasebook.Proofs.Message.Canonical
import Phrasebook.Proofs.Message.Formatting
import Phrasebook.Proofs.Message.Identifier
import Phrasebook.Proofs.Message.Inserted
import Phrasebook.Proofs.Message.Numbered
import Phrasebook.Proofs.Message.Options
import Phrasebook.Proofs.Message.Sources
import Phrasebook.Proofs.Message.Spacing
import Phrasebook.Proofs.Plural.Apart
import Phrasebook.Proofs.Project.Scanned
import Phrasebook.Proofs.Script.Spelling
import Phrasebook.Proofs.Script.TemplateEscape
import Phrasebook.Proofs.Settings.Accepted
import Phrasebook.Proofs.Source.Fragment
import Phrasebook.Proofs.Template
import Phrasebook.Proofs.Untranslated
import Phrasebook.Settings.Json
