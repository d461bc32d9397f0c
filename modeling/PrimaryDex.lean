import PrimaryDex.ClassFile.References
import PrimaryDex.ClassPath.Basic
import PrimaryDex.ClassPath.Locations
import PrimaryDex.ClassPath.Session
import PrimaryDex.Closure.Basic
import PrimaryDex.CommandLine.ImplicitBuild
import PrimaryDex.FileTree.Change
import PrimaryDex.FileTree.FileName
import PrimaryDex.Main
import PrimaryDex.Program.Basic
import PrimaryDex.Program.Roots
import PrimaryDex.Program.Settings
import PrimaryDex.Proofs.ClassFile.Collecting
import PrimaryDex.Proofs.ClassFile.ModifiedUtf8
import PrimaryDex.Proofs.ClassFile.Reading
import PrimaryDex.Proofs.ClassFile.References
import PrimaryDex.Proofs.ClassFile.ShortestGroups
import PrimaryDex.Proofs.ClassFile.Slots
import PrimaryDex.Proofs.ClassFile.Truncation
import PrimaryDex.Proofs.ClassFile.Writing
import PrimaryDex.Proofs.ClassPath.Appending
import PrimaryDex.Proofs.ClassPath.FirstMatch
import PrimaryDex.Proofs.ClassPath.FolderList
import PrimaryDex.Proofs.ClassPath.Interchange
import PrimaryDex.Proofs.ClassPath.Listing
import PrimaryDex.Proofs.ClassPath.RootContainer
import PrimaryDex.Proofs.ClassPath.Unreadable
import PrimaryDex.Proofs.Closure.Ascents
import PrimaryDex.Proofs.Closure.AtRest
import PrimaryDex.Proofs.Closure.Blocks
import PrimaryDex.Proofs.Closure.Climbs
import PrimaryDex.Proofs.Closure.Idempotence
import PrimaryDex.Proofs.Closure.LookUps
import PrimaryDex.Proofs.Closure.MissingRoot
import PrimaryDex.Proofs.Closure.Plain
import PrimaryDex.Proofs.Closure.Replay
import PrimaryDex.Proofs.Closure.Turns
import PrimaryDex.Proofs.CommandLine.ImplicitBuild
import PrimaryDex.Proofs.Descriptor.ElementClass
import PrimaryDex.Proofs.FileTree.Following
import PrimaryDex.Proofs.FileTree.Growing
import PrimaryDex.Proofs.FileTree.Orderly
import PrimaryDex.Proofs.FileTree.Paths
import PrimaryDex.Proofs.FileTree.Saving
import PrimaryDex.Proofs.FileTree.Unlocking
import PrimaryDex.Proofs.Program.Delivery
import PrimaryDex.Proofs.Roots.ReadBack
import PrimaryDex.Proofs.Roots.Spelling
import PrimaryDex.Report
import PrimaryDex.RootLines
import PrimaryDex.Settings
import PrimaryDex.Sha256
import PrimaryDex.Text.Utf8
import PrimaryDex.Zip.Archive
