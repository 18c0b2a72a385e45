import PriceTracker.Library.Machine
import PriceTracker.Library.Unwinding
import PriceTracker.Library.Store
import PriceTracker.Library.Loop
import PriceTracker.Library.Outbox
import PriceTracker.Library.Interleaving
import PriceTracker.Library.CachedList
import PriceTracker.Library.PositionalJoin
import PriceTracker.Database
import PriceTracker.Controllers.Wishlist
import PriceTracker.Controllers.LogIn
import PriceTracker.Controllers.SignUp
import PriceTracker.Controllers.People
import PriceTracker.Controllers.ItemDetails
import PriceTracker.Controllers.FriendFeed
import PriceTracker.SignUpRecord
import PriceTracker.SearchText
import PriceTracker.System
import PriceTracker.Copies
import PriceTracker.Uniqueness
import PriceTracker.ItemStore
import PriceTracker.Provenance
import PriceTracker.Drains
import PriceTracker.Readers
import PriceTracker.Records
import PriceTracker.FriendLists
import PriceTracker.OwnersFirst
import PriceTracker.FollowGraph
import PriceTracker.AtOnce
import PriceTracker.Dangling
import PriceTracker.SignedUp
import PriceTracker.Profiles
import PriceTracker.HalfSignUps
import PriceTracker.EmailOwners
import PriceTracker.Feed
import PriceTracker.FeedRows
import PriceTracker.FeedTaps
import PriceTracker.Deliveries
import PriceTracker.ItemPages
import PriceTracker.Screens
import PriceTracker.Tables
import PriceTracker.Refresh
import PriceTracker.SearchTable
import PriceTracker.SharedLists
import PriceTracker.Saves
import PriceTracker.Follows
import PriceTracker.Refinement
import PriceTracker.Visits
import PriceTracker.TwoFollows
import PriceTracker.FollowButton
import PriceTracker.OwnClients
import PriceTracker.Noninterference
import PriceTracker.App
import PriceTracker.Credentials
import PriceTracker.SteadyAccounts
import PriceTracker.CurrentUser
import PriceTracker.MixedAccounts
import PriceTracker.LateAnswers
import PriceTracker.LogInAgain
